import CSharpAudit.Source.LineTable
import Mathlib.Tactic.SplitIfs

/-!
The two tables of a source. Its lines start at ascending offsets inside it, so the
runs of line numbers between them number every offset once, by the lines that have
started: each offset lies on a line that starts no later, and the next line starts
behind it. Nothing here asks the source to be well-formed UTF-8.
-/

namespace CSharpAudit

theorem lineBreakWidth_le_length (bytes : Bytes) : lineBreakWidth bytes ≤ bytes.length := by
  cases bytes with
  | nil => exact Nat.le_refl 0
  | cons b rest =>
      have hhead {c : UInt8} (h : rest.head? = some c) : 0 < rest.length :=
        List.length_pos_of_mem (List.mem_of_head? h)
      have htake {c d : UInt8} (h : rest.take 2 = [c, d]) : 2 ≤ rest.length := by
        have hlength := congrArg List.length h
        simp only [List.length_take, List.length_cons, List.length_nil] at hlength
        omega
      simp only [lineBreakWidth, List.length_cons]
      split_ifs with h1 h2 h3 h4 h5 h6 h7
      · exact Nat.succ_le_succ (hhead h2)
      · omega
      · omega
      · exact Nat.succ_le_succ (hhead h5)
      · omega
      · rcases h7 with h7 | h7
        · exact Nat.succ_le_succ (htake h7)
        · exact Nat.succ_le_succ (htake h7)
      · omega
      · omega

theorem lt_of_mem_lineStartsAfter {offset start : Nat} {bytes : Bytes}
    (h : start ∈ lineStartsAfter offset bytes) : offset < start := by
  fun_induction lineStartsAfter offset bytes with
  | case1 => simp at h
  | case2 offset b rest hwidth ih => exact Nat.lt_trans (Nat.lt_succ_self offset) (ih h)
  | case3 offset b rest extra hwidth ih =>
      rcases List.mem_cons.mp h with rfl | h
      · omega
      · have hlater := ih h
        omega

theorem le_of_mem_lineStartsAfter {offset start : Nat} {bytes : Bytes}
    (h : start ∈ lineStartsAfter offset bytes) : start ≤ offset + bytes.length := by
  fun_induction lineStartsAfter offset bytes with
  | case1 => simp at h
  | case2 offset b rest hwidth ih =>
      have hle := ih h
      rw [List.length_cons]
      omega
  | case3 offset b rest extra hwidth ih =>
      have hfits := lineBreakWidth_le_length (b :: rest)
      rw [hwidth, List.length_cons] at hfits
      rw [List.length_cons]
      rcases List.mem_cons.mp h with rfl | h
      · omega
      · have hle := ih h
        rw [List.length_drop] at hle
        omega

theorem pairwise_lineStartsAfter (offset : Nat) (bytes : Bytes) :
    (lineStartsAfter offset bytes).Pairwise (· < ·) := by
  fun_induction lineStartsAfter offset bytes with
  | case1 => exact .nil
  | case2 offset b rest hwidth ih => exact ih
  | case3 offset b rest extra hwidth ih =>
      exact .cons (fun start h => lt_of_mem_lineStartsAfter h) ih

/-- Runs of equal numbers between ascending starts number each offset by the starts
that it has reached. -/
theorem flatMap_replicate_zipIdx {first stop line : Nat} {rest : List Nat}
    (hascending : (first :: rest).Pairwise (· < ·)) (hstop : ∀ start ∈ first :: rest, start ≤ stop) :
    ((((first :: rest).zip (rest ++ [stop])).zipIdx line).flatMap fun ((start, next), line) =>
      List.replicate (next - start) line) =
      (List.range' first (stop - first)).map fun offset =>
        line + rest.countP (fun start => start ≤ offset) := by
  induction rest generalizing first line with
  | nil => simp [List.map_const']
  | cons next rest ih =>
      obtain ⟨hnext, hrest⟩ := List.pairwise_cons.mp hascending
      obtain ⟨hlater, -⟩ := List.pairwise_cons.mp hrest
      have hlt : first < next := hnext next List.mem_cons_self
      have hle : next ≤ stop := hstop next (by simp)
      -- the offsets before the next start have passed none, those from it on have passed it
      have hrun : (List.range' first (next - first)).map
          (fun offset => line + (next :: rest).countP (fun start => start ≤ offset)) =
            List.replicate (next - first) line := by
        rw [List.eq_replicate_iff]
        refine ⟨by simp, fun number hnumber => ?_⟩
        obtain ⟨offset, hoffset, rfl⟩ := List.mem_map.mp hnumber
        obtain ⟨-, hbefore⟩ := List.mem_range'_1.mp hoffset
        rw [Nat.add_eq_left, List.countP_eq_zero]
        intro start hstart
        have hreached : next ≤ start := by
          rcases List.mem_cons.mp hstart with rfl | hstart
          · exact Nat.le_refl _
          · exact Nat.le_of_lt (hlater start hstart)
        simp only [decide_eq_true_eq]
        omega
      have htail : (List.range' next (stop - next)).map
          (fun offset => line + (next :: rest).countP (fun start => start ≤ offset)) =
            (List.range' next (stop - next)).map
              (fun offset => line + 1 + rest.countP (fun start => start ≤ offset)) := by
        refine List.map_congr_left fun offset hoffset => ?_
        obtain ⟨hpassed, -⟩ := List.mem_range'_1.mp hoffset
        rw [List.countP_cons_of_pos (by simpa using hpassed)]
        omega
      have hsplit : List.range' first (stop - first) =
          List.range' first (next - first) ++ List.range' next (stop - next) := by
        have happend := List.range'_append_1 (s := first) (m := next - first) (n := stop - next)
        rw [Nat.add_sub_cancel' (Nat.le_of_lt hlt)] at happend
        rw [happend]
        congr 1
        omega
      rw [hsplit, List.map_append, hrun, htail, ← ih hrest fun start h => hstop start (.tail _ h)]
      rfl

namespace LineTable

theorem pairwise_starts (source : Bytes) : (ofBytes source).starts.Pairwise (· < ·) :=
  .cons (fun _ h => lt_of_mem_lineStartsAfter h) (pairwise_lineStartsAfter 0 source)

theorem le_length_of_mem_starts {source : Bytes} {start : Nat}
    (h : start ∈ (ofBytes source).starts) : start ≤ source.length := by
  rcases List.mem_cons.mp h with rfl | h
  · exact Nat.zero_le _
  · have hle := le_of_mem_lineStartsAfter h
    omega

theorem start_lt_start {source : Bytes} {i j a b : Nat} (hij : i < j)
    (hi : (ofBytes source).starts[i]? = some a) (hj : (ofBytes source).starts[j]? = some b) :
    a < b := by
  obtain ⟨hi', rfl⟩ := List.getElem?_eq_some_iff.mp hi
  obtain ⟨hj', rfl⟩ := List.getElem?_eq_some_iff.mp hj
  exact List.pairwise_iff_getElem.mp (pairwise_starts source) i j hi' hj' hij

/-- The table numbers the offsets of the source, its end included, by the line
breaks that they have passed. -/
theorem lineNumbers_ofBytes (source : Bytes) :
    (ofBytes source).lineNumbers = (List.range (source.length + 1)).map fun offset =>
      1 + (lineStartsAfter 0 source).countP (fun start => start ≤ offset) := by
  rw [List.range_eq_range']
  exact flatMap_replicate_zipIdx (pairwise_starts source)
    fun start h => Nat.le_succ_of_le (le_length_of_mem_starts h)

theorem lineOf_ofBytes (source : Bytes) (offset : Int) :
    (ofBytes source).lineOf offset =
      if 0 ≤ offset ∧ offset ≤ source.length then
        .ok ((ofBytes source).starts.filter (fun (start : Nat) => (start : Int) ≤ offset)).length
      else .error (.outside offset source.length) := by
  have hlength : (ofBytes source).lineNumbers.length = source.length + 1 := by
    rw [lineNumbers_ofBytes, List.length_map, List.length_range]
  rw [lineOf]
  by_cases h : 0 ≤ offset ∧ offset ≤ source.length
  · rw [dif_pos (by omega), if_pos h]
    obtain ⟨k, rfl⟩ := Int.eq_ofNat_of_zero_le h.1
    have hcount : (ofBytes source).starts.countP (fun (start : Nat) => (start : Int) ≤ k) =
        1 + (lineStartsAfter 0 source).countP (fun start => start ≤ k) := by
      rw [ofBytes, List.countP_cons_of_pos (by simp), Nat.add_comm]
      simp only [Int.ofNat_le]
    rw [← List.countP_eq_length_filter, hcount]
    simp [lineNumbers_ofBytes]
  · rw [dif_neg (by omega), if_neg h, hlength, Nat.add_sub_cancel]

theorem lt_length_filter_iff {starts : List Nat} (h : starts.Pairwise (· < ·)) (offset : Int)
    (i : Nat) :
    i < (starts.filter (fun (start : Nat) => (start : Int) ≤ offset)).length ↔
      ∃ start, starts[i]? = some start ∧ (start : Int) ≤ offset := by
  induction starts generalizing i with
  | nil => simp
  | cons first rest ih =>
      obtain ⟨hfirst, hrest⟩ := List.pairwise_cons.mp h
      by_cases hle : (first : Int) ≤ offset
      · cases i with
        | zero => simp [hle]
        | succ i => simpa [hle] using ih hrest i
      · -- one start that comes too late is followed by later ones only
        have hlate (start : Nat) (hs : start ∈ first :: rest) : ¬ (start : Int) ≤ offset := by
          rcases List.mem_cons.mp hs with rfl | hs
          · exact hle
          · have hlt := hfirst start hs
            omega
        rw [List.filter_eq_nil_iff.mpr (by simpa using hlate)]
        simp only [List.length_nil, Nat.not_lt_zero, false_iff]
        rintro ⟨start, hget, hstart⟩
        exact hlate start (List.mem_of_getElem? hget) hstart

theorem lineOf_eq_ok_iff {source : Bytes} {offset : Int} {line : Nat} :
    (ofBytes source).lineOf offset = .ok line ↔ (0 ≤ offset ∧ offset ≤ source.length) ∧
      line = ((ofBytes source).starts.filter
        (fun (start : Nat) => (start : Int) ≤ offset)).length := by
  rw [lineOf_ofBytes]
  by_cases h : 0 ≤ offset ∧ offset ≤ source.length
  · rw [if_pos h, Except.ok.injEq, eq_comm]
    exact (and_iff_right h).symm
  · rw [if_neg h]
    simp [h]

theorem lineStart_succ (t : LineTable) (k start : Nat) :
    t.lineStart (k + 1 : Nat) = .ok start ↔ t.starts[k]? = some start := by
  have hplace : ((k + 1 : Nat) : Int) - 1 = k := by omega
  have hnonneg : ¬ (k : Int) < 0 := by omega
  simp only [lineStart, hplace, hnonneg, if_false, Int.toNat_natCast]
  split <;> simp_all

/-- Every offset of a source lies on a line of its table, and the line starts
no later. -/
theorem exists_line (source : Bytes) {offset : Int} (hoffset : 0 ≤ offset ∧ offset ≤ source.length) :
    ∃ k start : Nat, (ofBytes source).lineOf offset = .ok (k + 1) ∧
      (ofBytes source).starts[k]? = some start ∧ (start : Int) ≤ offset := by
  have hzero : (0 : Nat) <
      ((ofBytes source).starts.filter (fun (s : Nat) => (s : Int) ≤ offset)).length :=
    (lt_length_filter_iff (pairwise_starts source) offset 0).mpr ⟨0, rfl, hoffset.1⟩
  obtain ⟨k, hk⟩ := Nat.exists_eq_succ_of_ne_zero (Nat.pos_iff_ne_zero.mp hzero)
  obtain ⟨start, hget, hle⟩ :=
    (lt_length_filter_iff (pairwise_starts source) offset k).mp (hk ▸ Nat.lt_succ_self k)
  exact ⟨k, start, lineOf_eq_ok_iff.mpr ⟨hoffset, hk.symm⟩, hget, hle⟩

theorem le_of_mem_starts {source : Bytes} {offset : Int} {k start other : Nat}
    (hline : (ofBytes source).lineOf offset = .ok (k + 1))
    (hget : (ofBytes source).starts[k]? = some start)
    (hother : other ∈ (ofBytes source).starts) (hle : (other : Int) ≤ offset) :
    other ≤ start := by
  obtain ⟨i, hi⟩ := List.mem_iff_getElem?.mp hother
  have hik : i < k + 1 := by
    rw [(lineOf_eq_ok_iff.mp hline).2]
    exact (lt_length_filter_iff (pairwise_starts source) offset i).mpr ⟨other, hi, hle⟩
  rcases Nat.lt_or_eq_of_le (Nat.le_of_lt_succ hik) with hlt | rfl
  · exact Nat.le_of_lt (start_lt_start hlt hi hget)
  · exact Nat.le_of_eq (Option.some.inj (hi.symm.trans hget))

theorem lineOf_mono {source : Bytes} {a b : Int} {la lb : Nat} (hab : a ≤ b)
    (ha : (ofBytes source).lineOf a = .ok la) (hb : (ofBytes source).lineOf b = .ok lb) :
    la ≤ lb := by
  rw [(lineOf_eq_ok_iff.mp ha).2, (lineOf_eq_ok_iff.mp hb).2, ← List.countP_eq_length_filter,
    ← List.countP_eq_length_filter]
  refine List.countP_mono_left fun start _ hstart => ?_
  simp only [decide_eq_true_eq] at hstart ⊢
  exact Int.le_trans hstart hab

end LineTable

end CSharpAudit
