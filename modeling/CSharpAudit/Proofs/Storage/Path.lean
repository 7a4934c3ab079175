import CSharpAudit.Storage.Path
import Mathlib.Data.List.Basic

/-!
Clean paths. A clean path is put together from separators at its head and from
components that have no separator in them and lead somewhere, and both can be read
off it again. So cleaning a path twice is cleaning it once.
-/

namespace CSharpAudit

theorem of_mem_splitOn {x a : Char} {text piece : List Char} (hpiece : piece ∈ text.splitOn x)
    (ha : a ∈ piece) : a ∈ text ∧ a ≠ x := by
  induction text generalizing piece with
  | nil =>
      obtain rfl : piece = [] := by simpa [List.splitOn_nil] using hpiece
      simp at ha
  | cons b rest ih =>
      rw [List.splitOn_cons_eq_if_modifyHead] at hpiece
      obtain ⟨first, more, hrest⟩ := List.exists_cons_of_ne_nil (List.splitOn_ne_nil x rest)
      rw [hrest] at ih hpiece
      split at hpiece
      · rcases List.mem_cons.mp hpiece with rfl | hpiece
        · simp at ha
        · exact (ih hpiece ha).imp_left (List.mem_cons_of_mem b)
      · next hb =>
        rcases List.mem_cons.mp hpiece with rfl | hpiece
        · rcases List.mem_cons.mp ha with rfl | ha
          · exact ⟨List.mem_cons_self, by simpa using hb⟩
          · exact (ih List.mem_cons_self ha).imp_left (List.mem_cons_of_mem b)
        · exact (ih (List.mem_cons_of_mem _ hpiece) ha).imp_left (List.mem_cons_of_mem b)

/-- A component that leads somewhere and is not cut by a separator. -/
structure IsComponent (c : String) : Prop where
  ne_empty : c ≠ ""
  ne_dot : c ≠ "."
  separator : '/' ∉ c.toList

theorem of_mem_pathComponents {path c : String} (hc : c ∈ pathComponents path) :
    IsComponent c ∧ ∀ a ∈ c.toList, a ∈ path.toList := by
  rw [pathComponents, List.mem_filter] at hc
  obtain ⟨hmem, hkept⟩ := hc
  obtain ⟨piece, hpiece, rfl⟩ := List.mem_map.mp hmem
  simp only [Bool.and_eq_true, bne_iff_ne] at hkept
  rw [String.toList_ofList]
  refine ⟨⟨hkept.1, hkept.2, fun h => ?_⟩, fun a ha => (of_mem_splitOn hpiece ha).1⟩
  rw [String.toList_ofList] at h
  exact (of_mem_splitOn hpiece h).2 rfl

/-! Reading a clean path. -/

section Components

variable {cs : List String}

theorem pathComponents_intercalate (hcs : ∀ c ∈ cs, IsComponent c) :
    pathComponents (String.intercalate "/" cs) = cs := by
  cases cs with
  | nil => decide
  | cons c rest =>
      have htext : (String.intercalate "/" (c :: rest)).toList =
          ['/'].intercalate ((c :: rest).map String.toList) := String.toList_intercalate
      have hcut : (['/'].intercalate ((c :: rest).map String.toList)).splitOn '/' =
          (c :: rest).map String.toList :=
        List.splitOn_intercalate '/'
          (List.forall_mem_map.mpr fun c hc => (hcs c hc).separator) (by simp)
      rw [pathComponents, htext, hcut, List.map_map, List.filter_eq_self.mpr]
      · simp
      · intro c hc
        obtain ⟨d, hd, rfl⟩ := List.mem_map.mp hc
        simpa using ⟨(hcs d hd).ne_empty, (hcs d hd).ne_dot⟩

theorem pathComponents_append {root : List Char} (hroot : ∀ a ∈ root, a = '/') (text : String) :
    pathComponents (String.ofList root ++ text) = pathComponents text := by
  induction root with
  | nil => rfl
  | cons a root ih =>
      obtain ⟨rfl, hmore⟩ := List.forall_mem_cons.mp hroot
      rw [← ih hmore, pathComponents, pathComponents]
      simp only [String.toList_append, String.toList_ofList, List.cons_append]
      rw [List.splitOn_cons_eq_if_modifyHead]
      simp

theorem mem_pathRoot {text : List Char} {a : Char} (ha : a ∈ pathRoot text) : a = '/' := by
  rw [pathRoot] at ha
  split at ha <;> simp_all

/-- The separators at the head of a path stay as they are in front of anything that
starts with no separator. -/
theorem pathRoot_append {text body : List Char} (hbody : body.head? ≠ some '/') :
    pathRoot (pathRoot text ++ body) = pathRoot text := by
  have hnone : body.takeWhile (· == '/') = [] := by
    cases body with
    | nil => rfl
    | cons a rest => simpa [List.takeWhile_cons] using hbody
  have hroot : (pathRoot text ++ body).takeWhile (· == '/') = pathRoot text := by
    rw [List.takeWhile_append_of_pos fun a ha => by simp [mem_pathRoot ha], hnone,
      List.append_nil]
  rw [pathRoot, hroot]
  generalize htext : pathRoot text = root
  rw [pathRoot] at htext
  split at htext <;> subst htext <;> rfl

theorem head?_intercalate (hcs : ∀ c ∈ cs, IsComponent c) :
    (String.intercalate "/" cs).toList.head? ≠ some '/' := by
  rw [String.toList_intercalate]
  cases cs with
  | nil => simp
  | cons c rest =>
      have hc := hcs c List.mem_cons_self
      cases htext : c.toList with
      | nil => exact absurd (String.toList_eq_nil_iff.mp htext) hc.ne_empty
      | cons a more =>
          have ha : a ≠ '/' := by
            rintro rfl
            exact hc.separator (by simp [htext])
          cases rest <;> simp [htext, List.intercalate, ha]

theorem of_mem_intercalate {a : Char} (ha : a ∈ (String.intercalate "/" cs).toList) :
    a = '/' ∨ ∃ c ∈ cs, a ∈ c.toList := by
  induction cs with
  | nil => simp at ha
  | cons c rest ih =>
      cases rest with
      | nil => exact .inr ⟨c, by simp, by simpa using ha⟩
      | cons d more =>
          rw [String.intercalate_cons_cons, String.toList_append, String.toList_append,
            List.mem_append, List.mem_append] at ha
          rcases ha with (ha | ha) | ha
          · exact .inr ⟨c, List.mem_cons_self, ha⟩
          · exact .inl (by simpa using ha)
          · refine (ih ha).imp_right ?_
            rintro ⟨e, he, ha⟩
            exact ⟨e, List.mem_cons_of_mem c he, ha⟩

end Components

theorem cleanPath_cleanPath (path : String) : cleanPath (cleanPath path) = cleanPath path := by
  have hcs : ∀ c ∈ pathComponents path, IsComponent c := fun c hc => (of_mem_pathComponents hc).1
  let whole := String.ofList (pathRoot path.toList) ++
    String.intercalate "/" (pathComponents path)
  have hroot : pathRoot whole.toList = pathRoot path.toList := by
    rw [String.toList_append, String.toList_ofList, pathRoot_append (head?_intercalate hcs)]
  have hcomponents : pathComponents whole = pathComponents path := by
    rw [pathComponents_append fun _ => mem_pathRoot, pathComponents_intercalate hcs]
  by_cases hempty : whole = ""
  · have hclean : cleanPath path = "." := if_pos hempty
    rw [hclean]
    decide
  · have hclean : cleanPath path = whole := if_neg hempty
    rw [hclean, cleanPath, hroot, hcomponents]
    exact if_neg hempty

/-- Cleaning brings in nothing but separators and a dot. -/
theorem of_mem_cleanPath {path : String} {a : Char} (ha : a ∈ (cleanPath path).toList) :
    a ∈ path.toList ∨ a = '/' ∨ a = '.' := by
  rw [cleanPath] at ha
  split at ha
  · exact .inr (.inr (by simpa using ha))
  · rw [String.toList_append, String.toList_ofList, List.mem_append] at ha
    rcases ha with ha | ha
    · exact .inr (.inl (mem_pathRoot ha))
    · rcases of_mem_intercalate ha with rfl | ⟨c, hc, ha⟩
      · exact .inr (.inl rfl)
      · exact .inl ((of_mem_pathComponents hc).2 a ha)

end CSharpAudit
