import CSharpAudit.Proofs.Concrete.Excerpt

/-!
The error that parsing reports. It names the first place, in pre-order, that is
missing or unreadable: what is wrong there, and in which line and column it
starts. Where the marks of damage agree with the tree, the first such place of
the whole tree is named, and every damaged tree has one.
-/

namespace CSharpAudit

/-! Places. -/

/-- The line and the column behind some bytes, both counted from 1: the line feeds
among the bytes part the lines, and the bytes behind the last of them are in the
line already. -/
def PlacedBehind (before : Bytes) (line column : Int) : Prop :=
  ∃ above inLine, before = above ++ inLine ∧ 0x0A ∉ inLine ∧
    (above = [] ∨ above.getLast? = some 0x0A) ∧
    line = above.count 0x0A + 1 ∧ column = inLine.length + 1

theorem placedBehind_iff {before : Bytes} {line column : Int} :
    PlacedBehind before line column ↔
      line = before.count 0x0A + 1 ∧
        column = (before.reverse.takeWhile (· != 0x0A)).length + 1 := by
  constructor
  · rintro ⟨above, inLine, rfl, hinLine, habove, rfl, rfl⟩
    have hcolumn : (inLine.reverse ++ above.reverse).takeWhile (· != 0x0A) = inLine.reverse := by
      have hpass : ∀ b ∈ inLine.reverse, (b != 0x0A) = true := by
        intro b hb
        rw [bne_iff_ne]
        rintro rfl
        exact hinLine (List.mem_reverse.mp hb)
      rw [List.takeWhile_append_of_pos hpass]
      rcases habove with rfl | hlast
      · exact List.append_nil _
      · obtain ⟨first, rfl⟩ := List.getLast?_eq_some_iff.mp hlast
        simp
    rw [List.count_append, List.count_eq_zero.mpr hinLine, List.reverse_append, hcolumn,
      List.length_reverse]
    exact ⟨rfl, rfl⟩
  · rintro ⟨rfl, rfl⟩
    have hsplit : before.rdropWhile (· != 0x0A) ++ before.rtakeWhile (· != 0x0A) = before :=
      List.rdropWhile_append_rtakeWhile
    have hfree : (0x0A : UInt8) ∉ before.rtakeWhile (· != 0x0A) := by
      intro hmem
      simpa using List.mem_rtakeWhile_imp hmem
    refine ⟨before.rdropWhile (· != 0x0A), before.rtakeWhile (· != 0x0A), hsplit.symm, hfree,
      ?_, ?_, ?_⟩
    · by_cases hnil : before.rdropWhile (· != 0x0A) = []
      · exact .inl hnil
      · have hlast := List.rdropWhile_last_not _ _ hnil
        rw [bne_iff_ne, not_not] at hlast
        exact .inr ((List.getLast?_eq_some_getLast hnil).trans (congrArg some hlast))
    · nth_rewrite 1 [← hsplit]
      rw [List.count_append, List.count_eq_zero.mpr hfree, Nat.add_zero]
    · rw [List.rtakeWhile, List.length_reverse]

theorem Concrete.Point.placedBehind_ofOffset (source : Bytes) (start : Nat) :
    PlacedBehind (source.take start) ((Point.ofOffset source start).row + 1)
      ((Point.ofOffset source start).column + 1) := by
  have hclamp : source.take (Span.clamp source.length start) = source.take start := by
    rw [Span.clamp, if_neg (by omega), Int.toNat_natCast, List.take_eq_take_iff]
    omega
  rw [placedBehind_iff, ← hclamp]
  exact ⟨rfl, rfl⟩

/-! Faults. -/

/-- An error that names a fault: it says what is wrong, and the line and the column in
which the fault starts. -/
structure SyntaxError.Names (e : SyntaxError) (fault : Concrete.Node) (source : Bytes) :
    Prop where
  of_missing : fault.missing = true → e.cause.detail = "missing '" ++ fault.type ++ "'"
  of_present : fault.missing = false →
    Concrete.Describes e.cause.detail (fault.span.text source)
  place : ∃ line column, e.line = some line ∧ e.column = some column ∧
    (∀ start : Nat, fault.span.start = start → PlacedBehind (source.take start) line column) ∧
    e.message = "Syntax error at line " ++ toString line ++ ", column " ++ toString column ++
      ": " ++ e.cause.detail

structure SyntaxError.Placeless (e : SyntaxError) : Prop where
  line : e.line = none
  column : e.column = none
  message : e.message = "Syntax error: source could not be parsed"

theorem SyntaxError.Names.not_placeless {e : SyntaxError} {fault : Concrete.Node}
    {source : Bytes} (h : e.Names fault source) : ¬ e.Placeless := by
  intro hplaceless
  obtain ⟨line, column, hline, -⟩ := h.place
  rw [hplaceless.line] at hline
  contradiction

namespace Concrete

/-- The first of some nodes that is missing or unreadable. -/
def IsFirstFault (nodes : List Node) (fault : Node) : Prop :=
  (fault.type = "ERROR" ∨ fault.missing = true) ∧
    ∃ before after, nodes = before ++ fault :: after ∧
      ∀ n ∈ before, ¬ (n.type = "ERROR" ∨ n.missing = true)

namespace Node

theorem isFirstFault_iff {nodes : List Node} {fault : Node} :
    IsFirstFault nodes fault ↔ nodes.find? isFault = some fault := by
  rw [IsFirstFault, List.find?_eq_some_iff_append, isFault_iff]
  refine and_congr_right fun _ => exists_congr fun before => exists_congr fun after => ?_
  refine and_congr_right fun _ => forall_congr' fun n => imp_congr_right fun _ => ?_
  rw [← isFault_iff, Bool.not_eq_true', Bool.not_eq_true]

theorem names_faultError (fault : Node) (source : Bytes) :
    (fault.faultError source).Names fault source := by
  constructor
  case of_missing =>
    intro hmissing
    simp only [faultError, faultCause, hmissing, if_true]
    rfl
  case of_present => exact fun hpresent => detail_faultError hpresent source
  case place =>
    refine ⟨_, _, rfl, rfl, ?_, rfl⟩
    intro start hstart
    rw [hstart]
    exact Point.placedBehind_ofOffset source start

theorem names_syntaxError {root fault : Node}
    (h : IsFirstFault root.pruned.preorder fault) (source : Bytes) :
    (root.syntaxError source).Names fault source := by
  rw [isFirstFault_iff, ← map_pruned_firstFault?, Option.map_eq_some_iff] at h
  obtain ⟨found, hfound, rfl⟩ := h
  rw [syntaxError, hfound]
  change (found.faultError source).Names _ _
  rw [← faultError_pruned]
  exact names_faultError found.pruned source

theorem names_syntaxError_of_consistent {root fault : Node} (hflags : root.FlagsConsistent)
    (h : IsFirstFault root.preorder fault) (source : Bytes) :
    (root.syntaxError source).Names fault source := by
  rw [syntaxError, firstFault?_of_consistent hflags, isFirstFault_iff.mp h]
  exact names_faultError fault source

theorem placeless_syntaxError {root : Node}
    (h : ∀ n ∈ root.pruned.preorder, ¬ (n.type = "ERROR" ∨ n.missing = true)) (source : Bytes) :
    (root.syntaxError source).Placeless := by
  have hnone : root.pruned.preorder.find? isFault = none := by
    rw [List.find?_eq_none]
    exact fun n hn hfault => h n hn ((isFault_iff n).mp hfault)
  rw [← map_pruned_firstFault?, Option.map_eq_none_iff] at hnone
  rw [syntaxError, hnone]
  exact ⟨rfl, rfl, rfl⟩

theorem exists_isFirstFault {nodes : List Node}
    (h : ∃ n ∈ nodes, n.type = "ERROR" ∨ n.missing = true) :
    ∃ fault, IsFirstFault nodes fault := by
  obtain ⟨n, hn, hfault⟩ := h
  cases hfirst : nodes.find? isFault with
  | none => exact absurd ((isFault_iff n).mpr hfault) (List.find?_eq_none.mp hfirst n hn)
  | some fault => exact ⟨fault, isFirstFault_iff.mpr hfirst⟩

end Node

open CSharpAudit.Tree (parse sourceOf)

/-- The error of a tree names the first fault of the pruned tree, and no place only if
that tree has none. Under consistent marks parsing fails exactly if there is a fault
anywhere, and it names the first of the whole tree. -/
theorem parse_error_names_first_fault :
    (∀ (root : Node) (source : Bytes),
      (∀ fault, IsFirstFault root.pruned.preorder fault →
        (root.syntaxError source).Names fault source) ∧
      ((root.syntaxError source).Placeless ↔
        ∀ n ∈ root.pruned.preorder, ¬ (n.type = "ERROR" ∨ n.missing = true))) ∧
    ∀ (grammar : Grammar) (text : String), (grammar (sourceOf text)).FlagsConsistent →
      ((∃ e, parse grammar text = .error e) ↔
        ∃ n ∈ (grammar (sourceOf text)).preorder, n.type = "ERROR" ∨ n.missing = true) ∧
      ∀ e, parse grammar text = .error e →
        ¬ e.Placeless ∧ e.line ≠ none ∧ e.column ≠ none ∧
        ∃ fault, IsFirstFault (grammar (sourceOf text)).preorder fault ∧
          e.Names fault (sourceOf text) := by
  constructor
  · intro root source
    refine ⟨fun fault hfault => Node.names_syntaxError hfault source, ?_,
      fun hnone => Node.placeless_syntaxError hnone source⟩
    intro hplaceless n hn hfault
    obtain ⟨fault, hfirst⟩ := Node.exists_isFirstFault ⟨n, hn, hfault⟩
    exact (Node.names_syntaxError hfirst source).not_placeless hplaceless
  · intro grammar text hflags
    have hdamaged : (grammar (sourceOf text)).damaged = true ↔
        ∃ n ∈ (grammar (sourceOf text)).preorder, n.type = "ERROR" ∨ n.missing = true := by
      simp only [hflags.damaged_iff, Node.isFault_iff]
    constructor
    · rw [← hdamaged]
      constructor
      · rintro ⟨e, he⟩
        exact (Tree.parse_eq_error_iff.mp he).1
      · intro h
        exact ⟨_, Tree.parse_eq_error_iff.mpr ⟨h, rfl⟩⟩
    · intro e he
      obtain ⟨h, rfl⟩ := Tree.parse_eq_error_iff.mp he
      -- the mark at the root vouches for a fault, so the search cannot come back empty
      obtain ⟨fault, hfirst⟩ := Node.exists_isFirstFault (hdamaged.mp h)
      have hnames := Node.names_syntaxError_of_consistent hflags hfirst (sourceOf text)
      obtain ⟨line, column, hline, hcolumn, -⟩ := hnames.place
      rw [hline, hcolumn]
      exact ⟨hnames.not_placeless, Option.some_ne_none line, Option.some_ne_none column, fault,
        hfirst, hnames⟩

/-- The tree of `{ ]` in the second line: a block without its closing brace, and a
bracket that fits nowhere behind it. -/
def unclosedBlock : Node :=
  .branch "compilation_unit" ⟨0, 5⟩
    [.branch "block" ⟨2, 3⟩
      [.token "\x7b" ⟨2, 3⟩, { Node.token "\x7d" ⟨3, 3⟩ with missing := true, damaged := true }],
     .branch "ERROR" ⟨4, 5⟩ [.token "]" ⟨4, 5⟩]]

/-- The missing brace is reported, an anonymous node two levels down. -/
theorem parse_unclosedBlock :
    unclosedBlock.FlagsConsistent ∧
      ∃ e, parse (fun _ => unclosedBlock) "\r\n\x7b ]" = .error e ∧
        e.cause.detail = "missing '\x7d'" ∧ e.line = some 2 ∧ e.column = some 2 ∧
        e.message = "Syntax error at line 2, column 2: missing '\x7d'" := by
  have hflags : unclosedBlock.FlagsConsistent := by
    unfold Node.FlagsConsistent
    decide
  obtain ⟨hfails, hfirst⟩ :=
    parse_error_names_first_fault.2 (fun _ => unclosedBlock) "\r\n\x7b ]" hflags
  obtain ⟨e, he⟩ := hfails.mpr (by decide)
  obtain ⟨-, -, -, fault, hfault, hnames⟩ := hfirst e he
  obtain rfl := Option.some.inj
    ((Node.isFirstFault_iff.mp hfault).symm.trans (show _ = some _ from rfl))
  have hdetail : e.cause.detail = "missing '\x7d'" := hnames.of_missing rfl
  obtain ⟨line, column, hline, hcolumn, hplace, hmessage⟩ := hnames.place
  obtain ⟨rfl, rfl⟩ := placedBehind_iff.mp (hplace 3 rfl)
  rw [hdetail] at hmessage
  exact ⟨hflags, e, he, hdetail, hline, hcolumn, hmessage⟩

end Concrete

end CSharpAudit
