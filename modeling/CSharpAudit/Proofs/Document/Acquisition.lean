import CSharpAudit.Document
import CSharpAudit.Proofs.Text.WellFormed

/-!
How a file becomes a document. Reading drops one byte-order mark and parsing
another, so the tree stands over the bytes of the file without up to two of them,
and the text that is kept is the text of the tree unless there were two. What
stops a file that could be read is bytes that are not well formed, or a concrete
tree that is damaged, and nothing else.
-/

namespace CSharpAudit

namespace Tree

theorem sourceOf_eq_dropMark (text : String) :
    sourceOf text = Utf8.dropMark (Utf8.encode text) :=
  Utf8.encode_withoutMark text

theorem text_sourceOf (root : Node) (text : String) :
    Tree.text ⟨root, sourceOf text⟩ = withoutMark text :=
  Utf8.decode_encode (withoutMark text)

theorem encode_text_sourceOf (root : Node) (text : String) :
    Utf8.encode (Tree.text ⟨root, sourceOf text⟩) = sourceOf text := by
  rw [text_sourceOf, sourceOf]

theorem eq_text_sourceOf_iff (root : Node) (text : String) :
    text = Tree.text ⟨root, sourceOf text⟩ ↔ ¬ Utf8.byteOrderMark <+: Utf8.encode text := by
  rw [text_sourceOf, ← Utf8.withoutMark_eq_self_iff, eq_comm]

end Tree

namespace Document

/-- Reading asks the files for the clean path, unless the path is blank or no system
call takes it. -/
theorem readSource_eq_textOf {path : String} (hblank : Text.isBlankText path = false)
    (hnul : '\x00' ∉ path.toList) (read : String → Except ReadError Bytes) :
    readSource read (some path) = textOf (cleanPath path) (read (cleanPath path)) := by
  simp [readSource, hblank, hnul]

theorem textOf_cases (path : String) (bytes : Bytes) :
    (¬ Utf8.WellFormed bytes ∧
      (textOf path (.ok bytes)).result = .error (.acquisition ⟨some path, .notUtf8⟩)) ∨
    ∃ text, Utf8.encode text = Utf8.dropMark bytes ∧
      (textOf path (.ok bytes)).result = .ok text := by
  rw [← Utf8.wellFormed_dropMark_iff, ← Utf8.decode?_eq_error_iff]
  simp only [← Utf8.decode?_eq_ok_iff, textOf]
  cases Utf8.decode? (Utf8.dropMark bytes) with
  | error fault => exact .inl ⟨⟨fault, rfl⟩, rfl⟩
  | ok text => exact .inr ⟨text, rfl, rfl⟩

theorem ofText_cases (grammar : Grammar) (path text : String) :
    ((grammar (Tree.sourceOf text)).damaged = true ∧
      ∃ e, (ofText grammar path text).result = .error (.unparsable e)) ∨
    ((grammar (Tree.sourceOf text)).damaged = false ∧
      (ofText grammar path text).result = .ok
        { path, text
          tree := ⟨Node.ofConcrete (Tree.sourceOf text) (grammar (Tree.sourceOf text)),
            Tree.sourceOf text⟩ }) := by
  cases hdamaged : (grammar (Tree.sourceOf text)).damaged with
  | true =>
      refine .inl ⟨rfl, (grammar (Tree.sourceOf text)).syntaxError (Tree.sourceOf text), ?_⟩
      rw [ofText, Tree.parse_eq_error_iff.mpr ⟨hdamaged, rfl⟩]
  | false =>
      refine .inr ⟨rfl, ?_⟩
      rw [ofText, Tree.parse_eq_ok hdamaged]

section Load

variable {read : String → Except ReadError Bytes} {path : String} {bytes : Bytes}

/-- A blank path is no path: neither files nor grammar are asked. -/
theorem load_of_blank (read : String → Except ReadError Bytes) (grammar : Grammar)
    (hblank : Text.isBlankText path = true) :
    load read grammar (some path) = ⟨[], .error (.acquisition ⟨none, .blankPath⟩)⟩ := by
  simp [load, readSource, hblank]

theorem load_of_read_error (grammar : Grammar) {error : ReadError}
    (hblank : Text.isBlankText path = false) (hnul : '\x00' ∉ path.toList)
    (hread : read (cleanPath path) = .error error) :
    (load read grammar (some path)).result =
      .error (.acquisition ⟨some (cleanPath path), .unreadable error⟩) := by
  rw [load, readSource_eq_textOf hblank hnul, hread]
  rfl

theorem load_of_read_ok (grammar : Grammar) (hblank : Text.isBlankText path = false)
    (hnul : '\x00' ∉ path.toList) (hread : read (cleanPath path) = .ok bytes) :
    let source := Utf8.dropMark (Utf8.dropMark bytes)
    (¬ Utf8.WellFormed bytes ∧
      (readSource read (some path)).result =
        .error (.acquisition ⟨some (cleanPath path), .notUtf8⟩) ∧
      (load read grammar (some path)).result =
        .error (.acquisition ⟨some (cleanPath path), .notUtf8⟩)) ∨
    ∃ text, Utf8.encode text = Utf8.dropMark bytes ∧ Tree.sourceOf text = source ∧
      (readSource read (some path)).result = .ok text ∧
      (((grammar source).damaged = true ∧
          ∃ e, (load read grammar (some path)).result = .error (.unparsable e)) ∨
        ((grammar source).damaged = false ∧ (load read grammar (some path)).result = .ok
          { path := cleanPath path, text
            tree := ⟨Node.ofConcrete source (grammar source), source⟩ })) := by
  rw [load, readSource_eq_textOf hblank hnul, hread]
  rcases textOf_cases (cleanPath path) bytes with ⟨hill, hresult⟩ | ⟨text, htext, hresult⟩
  · refine .inl ⟨hill, hresult, ?_⟩
    rw [hresult]
  · have hsource : Tree.sourceOf text = Utf8.dropMark (Utf8.dropMark bytes) := by
      rw [Tree.sourceOf_eq_dropMark, htext]
    refine .inr ⟨text, htext, hsource, hresult, ?_⟩
    rw [hresult, ← hsource]
    exact ofText_cases grammar (cleanPath path) text

/-- Acquisition is exact on bytes. A file that could be read is refused as text
exactly if its bytes are not well formed, and is otherwise read as the text of its
bytes without one mark. It becomes a document if its tree is sound as well. The tree
then stands over the bytes without up to two marks and has them for its text, and
the document has another text only if there were two marks. -/
theorem load_exact_on_bytes (grammar : Grammar) (hblank : Text.isBlankText path = false)
    (hnul : '\x00' ∉ path.toList) (hread : read (cleanPath path) = .ok bytes) :
    ((∃ e, (readSource read (some path)).result = .error (.acquisition e) ∧
        e.reason.text = "not valid UTF-8 text") ↔ ¬ Utf8.WellFormed bytes) ∧
    (Utf8.WellFormed bytes → ∃ text, (readSource read (some path)).result = .ok text ∧
      Utf8.encode text = Utf8.dropMark bytes) ∧
    ((∃ doc, (load read grammar (some path)).result = .ok doc) ↔
      Utf8.WellFormed bytes ∧
        (grammar (Utf8.dropMark (Utf8.dropMark bytes))).damaged = false) ∧
    ∀ doc, (load read grammar (some path)).result = .ok doc →
      (readSource read (some path)).result = .ok doc.text ∧
      doc.tree.source = Utf8.dropMark (Utf8.dropMark bytes) ∧
      Utf8.encode doc.tree.text = doc.tree.source ∧
      (doc.text = doc.tree.text ↔ ¬ Utf8.byteOrderMark ++ Utf8.byteOrderMark <+: bytes) := by
  rcases load_of_read_ok grammar hblank hnul hread with
    ⟨hill, hsource, hload⟩ | ⟨text, htext, hsource, hresult, htree⟩
  · simp [hill, hsource, hload, AcquisitionError.Reason.text]
  have hwell : Utf8.WellFormed bytes := (Utf8.wellFormed_dropMark_iff bytes).mp ⟨text, htext⟩
  rcases htree with ⟨hdamaged, e, hload⟩ | ⟨hsound, hload⟩
  · simp [hwell, hresult, hload, hdamaged, htext]
  · refine ⟨?_, ?_, ?_, ?_⟩
    · simp [hwell, hresult]
    · exact fun _ => ⟨text, hresult, htext⟩
    · exact iff_of_true ⟨_, hload⟩ ⟨hwell, hsound⟩
    · intro doc hdoc
      obtain rfl := Except.ok.inj (hload.symm.trans hdoc)
      refine ⟨hresult, rfl, ?_, ?_⟩
      · rw [← hsource]
        exact Tree.encode_text_sourceOf _ text
      · rw [← hsource, ← Utf8.mark_prefix_dropMark_iff, ← htext]
        exact Tree.eq_text_sourceOf_iff _ text

end Load

/-- A file with two marks keeps one in its text and none in its tree, and a file that
writes a surrogate is refused. -/
theorem load_exact_on_bytes_twoMarks :
    (∃ doc, (load (fun _ => .ok (Utf8.byteOrderMark ++ Utf8.byteOrderMark ++ [0x78]))
        (fun _ => .branch "compilation_unit" ⟨0, 1⟩ []) (some "a.cs")).result = .ok doc ∧
      doc.tree.source = [0x78] ∧ doc.text ≠ doc.tree.text) ∧
    ∃ e, (readSource (fun _ => .ok [0xED, 0xA0, 0x80]) (some "a.cs")).result =
      .error (.acquisition e) ∧ e.reason.text = "not valid UTF-8 text" := by
  have hblank : Text.isBlankText "a.cs" = false := by decide
  have hnul : '\x00' ∉ "a.cs".toList := by decide
  have hwell : Utf8.WellFormed (Utf8.byteOrderMark ++ Utf8.byteOrderMark ++ [0x78]) :=
    ⟨"\uFEFF\uFEFFx", by decide⟩
  have hill : ¬ Utf8.WellFormed [0xED, 0xA0, 0x80] := by
    refine Utf8.decode?_eq_error_iff.mp ⟨⟨0, 0xED, 0, .continuation⟩, ?_⟩
    rw [Utf8.decode?, Utf8.decodeFrom]
    rfl
  constructor
  · obtain ⟨-, -, hloads, hdoc⟩ := @load_exact_on_bytes (fun _ => .ok _) "a.cs" _
      (fun _ => .branch "compilation_unit" ⟨0, 1⟩ []) hblank hnul rfl
    obtain ⟨doc, hload⟩ := hloads.mpr ⟨hwell, rfl⟩
    obtain ⟨-, hsource, -, htext⟩ := hdoc doc hload
    exact ⟨doc, hload, hsource, fun h => htext.mp h (List.prefix_append _ _)⟩
  · exact (@load_exact_on_bytes (fun _ => .ok _) "a.cs" _ (fun _ => default) hblank hnul
      rfl).1.mpr hill

end Document

end CSharpAudit
