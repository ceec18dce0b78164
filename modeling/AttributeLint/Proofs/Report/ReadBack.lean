import AttributeLint.Proofs.Files.Paths
import AttributeLint.Proofs.Json.Limits
import AttributeLint.Proofs.Json.RoundTrip
import AttributeLint.Proofs.Report.AllOrNothing
import AttributeLint.Proofs.Rule.KeyOrder
import Mathlib

/-!
# Reports that are read back

A run that is asked for JSON prints one document.  The reader that reads the trees also reads this
document, and what it gives says everything about the findings.

* `limited_listing`, `placed_of_lintFile`: the places of findings come from numbers that were read, so they
  keep to the limit on digits, and the reader takes them again.
* `stdout_of_ok`: what is printed, with a log or without.
* `violations_eq_of_json_eq`: two documents with the same text have the same list of violations.  Only this
  list is read for it, so the counts behind it may be of any size.
* `json_report_reads_back`: the document of a whole run.
-/

namespace AttributeLint

open Files (Path Tree)
open Json (Limited)
open Syntax

/-! ## Places -/

theorem limited_field {d : Data} (h : Limited d) (key : String) : Limited (d.field key) := by
  cases h with
  | @object fields hall =>
    rw [Data.field]
    cases hget : Fields.get? fields key with
    | none => exact .null
    | some value => exact hall _ (Fields.mem_of_get? hget)
  | _ => exact .null

theorem limited_itemsOf {element : Data} (h : Limited element) :
    ∀ node ∈ itemsOf element, Limited node := by
  have hlist := limited_field h "attributes"
  rw [itemsOf]
  split
  · next items hitems =>
    rw [hitems] at hlist
    cases hlist with
    | list hall => exact hall
  · exact List.forall_mem_nil _

theorem mem_listingFields {fields element : Fields} (h : element ∈ listingFields fields) :
    ∃ entry ∈ fields, element ∈ listing entry.2 := by
  rw [listingFields_eq_flatMap] at h
  obtain ⟨entry, hentry, hmem⟩ := List.mem_flatMap.mp h
  rw [listingEntry] at hmem
  split at hmem
  · cases hmem
  · exact ⟨entry, hentry, hmem⟩

/-- The elements of a tree keep to the limits if the tree does. -/
theorem limited_listing {tree : Data} (h : Limited tree) :
    ∀ fields ∈ listing tree, Limited (.object fields) := by
  induction h with
  | list _ ih =>
    intro fields hmem
    rw [listing, ← flatMap_listing] at hmem
    obtain ⟨d, hd, hmem⟩ := List.mem_flatMap.mp hmem
    exact ih d hd fields hmem
  | @object outer hall ih =>
    intro fields hmem
    have hinner : ∀ element ∈ listingFields outer, Limited (.object element) := by
      intro element helement
      obtain ⟨entry, he, hlisted⟩ := mem_listingFields helement
      exact ih entry he element hlisted
    rw [listing] at hmem
    split at hmem
    · rcases List.mem_cons.mp hmem with rfl | hmem
      · exact .object hall
      · exact hinner fields hmem
    · exact hinner fields hmem
  | _ =>
    intro fields hmem
    rw [listing] at hmem
    · cases hmem
    all_goals rintro _ ⟨⟩

theorem natAbs_coordinate_lt {start : Fields} (h : Limited (.object start)) {key : String} {n : Int}
    (hn : Position.coordinate start key = .at n) : n.natAbs < 10 ^ Integer.digitLimit := by
  have hpos : 0 < 10 ^ Integer.digitLimit := Nat.pow_pos (by decide)
  rw [Position.coordinate] at hn
  cases hget : Fields.get? start key with
  | none =>
    rw [hget] at hn
    cases hn
    exact hpos
  | some d =>
    rw [hget] at hn
    have hd : Limited d := by
      cases h with
      | object hall => exact hall _ (Fields.mem_of_get? hget)
    cases hd with
    | bool b =>
      cases hn
      have hone : 1 < 10 ^ Integer.digitLimit := Nat.one_lt_pow (by decide) (by decide)
      cases b
      · exact hpos
      · exact hone
    | int h =>
      cases hn
      exact h
    | @float x h =>
      cases x with
      | finite negative mantissa exponent =>
        cases hn
        exact h.natAbs_truncate_lt
      | nan => cases hn
      | infinite negative => cases hn
    | str s =>
      dsimp only [Coordinate.ofData] at hn
      split at hn
      · next m hm =>
        cases hn
        exact Integer.natAbs_lt_of_ofText? hm
      · cases hn
    | _ => cases hn

/-- The place of a node keeps to the limit on digits. -/
theorem natAbs_startOf_lt {node : Data} (h : Limited node) {p : Position} (hp : startOf node = some p) :
    p.line.natAbs < 10 ^ Integer.digitLimit ∧ p.column.natAbs < 10 ^ Integer.digitLimit := by
  have hstart := limited_field (limited_field h "loc") "start"
  rw [startOf] at hp
  split at hp
  · next start hobject =>
    rw [hobject] at hstart
    split at hp
    · next line column hline hcolumn =>
      cases hp
      exact ⟨natAbs_coordinate_lt hstart hline, natAbs_coordinate_lt hstart hcolumn⟩
    · cases hp
  · cases hp

/-! ## Findings -/

/-- A finding in a file, at a place within the limit on digits or at none. -/
structure Finding.Placed (f : Finding) (path : Path) : Prop where
  file : f.file = some path
  line : ∀ n ∈ f.line, n.natAbs < 10 ^ Integer.digitLimit
  column : ∀ n ∈ f.column, n.natAbs < 10 ^ Integer.digitLimit

theorem placed_findingAt {node : Data} (h : Limited node) (rule : String) (path : Path)
    (d : Filter.Descriptor) : (findingAt rule (some path) node d).Placed path where
  file := rfl
  line n hn := by
    obtain ⟨p, hp, rfl⟩ := Option.map_eq_some_iff.mp hn
    exact (natAbs_startOf_lt h hp).1
  column n hn := by
    obtain ⟨p, hp, rfl⟩ := Option.map_eq_some_iff.mp hn
    exact (natAbs_startOf_lt h hp).2

theorem placed_findingsOn {element : Data} (h : Limited element) (keep : Filter.Descriptor → Bool)
    (rule : String) (path : Path) :
    ∀ f ∈ findingsOn keep rule (some path) element, f.Placed path := by
  intro f hf
  obtain ⟨⟨node, d⟩, hentry, rfl⟩ := List.mem_map.mp hf
  obtain ⟨node', hnode, hliteral⟩ := List.mem_filterMap.mp (List.mem_filter.mp hentry).1
  obtain ⟨value, -, heq⟩ := Option.map_eq_some_iff.mp hliteral
  cases heq
  exact placed_findingAt (limited_itemsOf h node (List.mem_filter.mp hnode).1) rule path _

/-- **The findings in a file** name the file, and their places keep to the limit on digits. -/
theorem placed_of_lintFile {r : Rule} {tree : Tree} {path : Path} {fs : List Finding}
    (h : (r.lintFile tree path).outcome = .ok fs) : ∀ f ∈ fs, f.Placed path := by
  rw [Rule.lintFile] at h
  split at h
  · cases h
  · split at h
    · cases h
    · next d hd =>
      have hlimited := limited_listing (Json.limited_of_read hd)
      intro f hf
      rw [(lint_ok_iff.mp (mapError_eq_ok_iff.mp h)).2] at hf
      obtain ⟨fields, hfields, hf⟩ := List.mem_flatMap.mp hf
      exact placed_findingsOn (hlimited fields hfields) _ _ path f hf

namespace Report

theorem placed_of_lintsTo {r : Rule} {tree : Tree} {paths : List Path}
    {results : List (List Finding)} (h : LintsTo r tree paths results) :
    ∀ f ∈ results.flatten, ∃ path ∈ paths, f.Placed path := by
  induction h with
  | nil => exact List.forall_mem_nil _
  | @cons path fs paths results hp _ ih =>
    rw [List.flatten_cons, List.forall_mem_append]
    constructor
    · exact fun f hf => ⟨path, List.mem_cons_self, placed_of_lintFile hp f hf⟩
    · intro f hf
      obtain ⟨other, hother, hplaced⟩ := ih f hf
      exact ⟨other, List.mem_cons_of_mem _ hother, hplaced⟩

/-! ## What is printed -/

theorem lintAll_progress {r : Rule} {tree : Tree} {paths : List Path}
    {results : List (List Finding)} (h : LintsTo r tree paths results) (logged : Bool) :
    ∀ found, (lintAll r tree logged found paths).2 = .findings (found ++ results.flatten) := by
  induction h with
  | nil =>
    intro found
    rw [List.flatten_nil, List.append_nil]
    rfl
  | cons hp _ ih =>
    intro found
    rw [lintAll]
    dsimp only
    rw [hp]
    dsimp only
    rw [ih, List.flatten_cons, List.append_assoc]

/-- What a run prints that is asked for JSON, with a log or without. -/
theorem stdout_of_ok {tree : Tree} {q : Request} {options : Filter.Options}
    {results : List (List Finding)} (hr : q.rule = Rule.id) (hj : q.asJson = true)
    (ho : optionsOf tree q = .ok options) (h : LintsTo ⟨options⟩ tree q.paths results) :
    (run tree q).stdout = json q.paths.length results.flatten ++ "\n" := by
  have hprogress := lintAll_progress h q.logged []
  rw [run_of_options hr ho, runWith]
  dsimp only
  rw [hprogress]
  dsimp only
  rw [hj]
  rfl

/-! ## Documents -/

/-- What a document says of a finding. -/
theorem violation_eq (f : Finding) :
    violation f = .object [
      ("rule", .str f.rule),
      ("file", (f.file.map fun path => Data.str path.text).getD .null),
      ("line", (f.line.map Data.int).getD .null),
      ("column", (f.column.map Data.int).getD .null),
      ("message", .str f.message)] := by
  obtain ⟨rule, message, file, line, column⟩ := f
  cases file <;> cases line <;> cases column <;> rfl

theorem writable_violation {f : Finding} {path : Path} (h : f.Placed path) :
    Json.Writable (violation f) := by
  have hoptional : ∀ {x : Option Int}, (∀ n ∈ x, n.natAbs < 10 ^ Integer.digitLimit) →
      Json.Writable ((x.map Data.int).getD .null) := by
    intro x hx
    cases x with
    | none => exact .null
    | some n => exact .int (hx n rfl)
  rw [violation_eq, h.file]
  refine .object (show ["rule", "file", "line", "column", "message"].Nodup by decide) ?_
  simp only [List.forall_mem_cons]
  exact ⟨.str _, .str _, hoptional h.line, hoptional h.column, .str _, List.forall_mem_nil _⟩

/-- The violation of a finding says everything about it. -/
theorem eq_of_violation_eq {f g : Finding} {path path' : Path} (hf : f.Placed path)
    (hg : g.Placed path') (hpath : path.WellFormed) (hpath' : path'.WellFormed)
    (h : violation f = violation g) : f = g := by
  have hoptional : ∀ {x y : Option Int},
      (x.map Data.int).getD .null = (y.map Data.int).getD .null → x = y := by
    intro x y hxy
    cases x <;> cases y <;> cases hxy <;> rfl
  rw [violation_eq, violation_eq, hf.file, hg.file] at h
  simp only [Data.object.injEq, List.cons.injEq, Prod.mk.injEq, true_and, and_true, Option.map_some,
    Option.getD_some, Data.str.injEq] at h
  obtain ⟨hrule, htext, hline, hcolumn, hmessage⟩ := h
  have hsame : path = path' := Path.eq_of_text_eq hpath hpath' htext
  have hfile : f.file = g.file := by rw [hf.file, hg.file, hsame]
  obtain ⟨rule, message, file, line, column⟩ := f
  rw [Finding.mk.injEq]
  exact ⟨hrule, hmessage, hfile, hoptional hline, hoptional hcolumn⟩

theorem writable_violations {fs : List Finding} (h : ∀ f ∈ fs, ∃ path, f.Placed path) :
    Json.Writable (.list (fs.map violation)) := by
  refine .list (List.forall_mem_map.mpr fun f hf => ?_)
  obtain ⟨path, hplaced⟩ := h f hf
  exact writable_violation hplaced

/-- A document can be read back exactly if its counts keep to the limit on digits. -/
theorem read_document_iff (files : Nat) {fs : List Finding} (h : ∀ f ∈ fs, ∃ path, f.Placed path) :
    Json.read (json files fs ++ "\n").toList = .ok (document files fs) ↔
      files < 10 ^ Integer.digitLimit ∧ fs.length < 10 ^ Integer.digitLimit := by
  constructor
  · intro hread
    have hlimited := limited_field (Json.limited_of_read hread) "summary"
    have hfiles := limited_field hlimited "files"
    have hviolations := limited_field hlimited "violations"
    cases hfiles with
    | int hfiles =>
      cases hviolations with
      | int hviolations => exact ⟨hfiles, hviolations⟩
  · rintro ⟨hfiles, hviolations⟩
    have hsummary : Json.Writable
        (.object [("files", .int files), ("violations", .int fs.length)]) := by
      refine .object (show ["files", "violations"].Nodup by decide) ?_
      simp only [List.forall_mem_cons]
      exact ⟨.int hfiles, .int hviolations, List.forall_mem_nil _⟩
    have hdocument : Json.Writable (document files fs) := by
      refine .object (show ["violations", "summary"].Nodup by decide) ?_
      simp only [List.forall_mem_cons]
      exact ⟨writable_violations h, hsummary, List.forall_mem_nil _⟩
    rw [String.toList_append, json, Json.write, String.toList_ofList]
    exact Json.read_written hdocument (.indented 2) (Json.stops_cons (by decide) [])
      (List.forall_mem_singleton.mpr rfl)

/-- The text of a document is plain. -/
theorem plain_json (files : Nat) (fs : List Finding) : ∀ c ∈ (json files fs).toList, Json.Plain c := by
  rw [json, Json.write, String.toList_ofList]
  exact Json.plain_writeAt _ _ 0

/-- **The text of a document says what its violations are.** -/
theorem violations_eq_of_json_eq {files files' : Nat} {fs fs' : List Finding}
    (h : ∀ f ∈ fs, ∃ path, f.Placed path) (h' : ∀ f ∈ fs', ∃ path, f.Placed path)
    (heq : json files fs = json files' fs') : fs.map violation = fs'.map violation := by
  -- both texts start alike up to the list, and a comma comes behind it
  have hsplit : ∀ (files : Nat) (fs : List Finding), ∃ rest, Json.Stops rest ∧
      (json files fs).toList =
        '\x7b' :: ((Json.Layout.indented 2).lineBreak 1 ++ (Json.writeString "violations" ++
          (':' :: ' ' :: (Json.writeAt (.indented 2) 1 (.list (fs.map violation)) ++ rest)))) := by
    intro files fs
    refine ⟨_, Json.stops_writeFields (.indented 2) 1 0 [("summary", .object [("files", .int files),
      ("violations", .int fs.length)])] [], ?_⟩
    rw [json, Json.write, String.toList_ofList, document, Json.writeAt]
    simp only [List.append_assoc, List.cons_append]
  obtain ⟨rest, hrest, htext⟩ := hsplit files fs
  obtain ⟨rest', hrest', htext'⟩ := hsplit files' fs'
  have htexts := htext.symm.trans ((congrArg String.toList heq).trans htext')
  simp only [List.cons.injEq, true_and, List.append_cancel_left_eq] at htexts
  exact Data.list.inj (Json.eq_of_writeAt_append_eq (writable_violations h) (writable_violations h')
    (.indented 2) 1 hrest hrest' htexts)

/-- Two lists of findings in files are the same if their violations are. -/
theorem eq_of_violations_eq {fs fs' : List Finding}
    (h : ∀ f ∈ fs, ∃ path, path.WellFormed ∧ f.Placed path)
    (h' : ∀ f ∈ fs', ∃ path, path.WellFormed ∧ f.Placed path)
    (heq : fs.map violation = fs'.map violation) : fs = fs' := by
  induction fs generalizing fs' with
  | nil => exact (List.map_eq_nil_iff.mp heq.symm).symm
  | cons f fs ih =>
    cases fs' with
    | nil => cases heq
    | cons g gs =>
      obtain ⟨⟨path, hpath, hf⟩, hfs⟩ := List.forall_mem_cons.mp h
      obtain ⟨⟨path', hpath', hg⟩, hgs⟩ := List.forall_mem_cons.mp h'
      obtain ⟨hhead, htail⟩ := List.cons.inj heq
      rw [eq_of_violation_eq hf hg hpath hpath' hhead, ih hfs hgs htail]

/-! ## Runs -/

/-- **The document of a run can be read back.**  Where the options load and every file is linted, a run
that is asked for JSON prints one document of ASCII characters and a line break.  The reader of the trees
takes it, and gives the findings in their order and the counts; the only numbers that it could refuse are
the counts, for lists with more items than ten to the power of the limit on digits.  A file that holds
what is printed has it as its text.  And two runs that print the same have found the same. -/
theorem json_report_reads_back {tree : Tree} {q : Request} {options : Filter.Options}
    {results : List (List Finding)} (hid : q.rule ∈ Rule.registry.map (·.1)) (hj : q.asJson = true)
    (ho : optionsOf tree q = .ok options) (h : LintsTo ⟨options⟩ tree q.paths results) :
    let found := results.flatten
    let stdout := (run tree q).stdout.toList
    (∃ text, stdout = text ++ ['\n'] ∧ ∀ c ∈ text, c.toNat < 0x80) ∧
    (Json.read stdout = .ok (.object [
        ("violations", .list (found.map fun f => .object [
          ("rule", .str f.rule),
          ("file", (f.file.map fun path => Data.str path.text).getD .null),
          ("line", (f.line.map Data.int).getD .null),
          ("column", (f.column.map Data.int).getD .null),
          ("message", .str f.message)])),
        ("summary", .object [
          ("files", .int q.paths.length), ("violations", .int found.length)])]) ↔
      q.paths.length < 10 ^ Integer.digitLimit ∧ found.length < 10 ^ Integer.digitLimit) ∧
    (∀ (files : Tree) (path : Path), files.bytes path = .ok (Json.bytesOf stdout) →
      files.text path = .ok stdout) ∧
    ∀ (tree' : Tree) (q' : Request) (options' : Filter.Options) (results' : List (List Finding)),
      q'.rule ∈ Rule.registry.map (·.1) → q'.asJson = true → optionsOf tree' q' = .ok options' →
      LintsTo ⟨options'⟩ tree' q'.paths results' →
      (∀ path ∈ q.paths ++ q'.paths, ∃ text, path = Path.ofText text) →
      (run tree' q').stdout = (run tree q).stdout → results'.flatten = found := by
  intro found stdout
  have hstdout := stdout_of_ok (eq_id_of_mem_registry hid) hj ho h
  have hplaced := placed_of_lintsTo h
  have hfiles : ∀ f ∈ found, ∃ path, f.Placed path := fun f hf =>
    (hplaced f hf).imp fun _ hpath => hpath.2
  have htext : stdout = (json q.paths.length found).toList ++ ['\n'] := by
    show (run tree q).stdout.toList = _
    rw [hstdout, String.toList_append]
    rfl
  have hplain : ∀ c ∈ stdout, Json.Plain c := by
    rw [htext, List.forall_mem_append]
    exact ⟨plain_json _ _, List.forall_mem_singleton.mpr (by decide)⟩
  refine ⟨⟨_, htext, fun c hc => (plain_json _ _ c hc).lt⟩, ?_, ?_, ?_⟩
  · have hdocument := read_document_iff q.paths.length hfiles
    rw [document, List.map_congr_left fun f _ => violation_eq f, ← hstdout] at hdocument
    exact hdocument
  · intro files path hbytes
    rw [Tree.text, hbytes]
    dsimp only
    rw [Json.decode_plain hplain]
    dsimp only
    rw [Json.unifyBreaks_plain hplain]
  · intro tree' q' options' results' hid' hj' ho' h' hpaths heq
    have hstdout' := stdout_of_ok (eq_id_of_mem_registry hid') hj' ho' h'
    have hplaced' := placed_of_lintsTo h'
    have hwellFormed : ∀ path ∈ q.paths ++ q'.paths, path.WellFormed := by
      intro path hpath
      obtain ⟨text, rfl⟩ := hpaths path hpath
      exact Path.wellFormed_ofText text
    have hjson : json q'.paths.length results'.flatten = json q.paths.length found :=
      (String.append_left_inj _).mp (hstdout'.symm.trans (heq.trans hstdout))
    refine eq_of_violations_eq ?_ ?_ (violations_eq_of_json_eq
      (fun f hf => (hplaced' f hf).imp fun _ hpath => hpath.2) hfiles hjson)
    · intro f hf
      obtain ⟨path, hpath, hf⟩ := hplaced' f hf
      exact ⟨path, hwellFormed path (List.mem_append_right _ hpath), hf⟩
    · intro f hf
      obtain ⟨path, hpath, hf⟩ := hplaced f hf
      exact ⟨path, hwellFormed path (List.mem_append_left _ hpath), hf⟩

/-- A file with one literal: a quote, a backslash, a line feed and a character beyond sixteen bits. -/
def reportFiles : Tree :=
  .ofWorkdir [] [
    (["a"], .file ("\x7b\"type\": \"JSXOpeningElement\", \"attributes\": [".toUTF8.toList ++
      "\x7b\"type\": \"JSXAttribute\", \"value\": \x7b\"type\": \"Literal\", ".toUTF8.toList ++
      "\"value\": \"\\\"\\\\\\n\\ud83d\\ude00\"\x7d, ".toUTF8.toList ++
      "\"loc\": \x7b\"start\": \x7b\"line\": \"7\", \"column\": 1e2\x7d\x7d\x7d]\x7d".toUTF8.toList))]

theorem json_report_reads_back_sample :
    let a : Path := ⟨"", ["a"]⟩
    let q : Request := { paths := [a], asJson := true }
    let finding : Finding :=
      { rule := Rule.id, message := Rule.message ⟨"", "", "\"\\\n😀"⟩, file := some a
        line := some 7, column := some 100 }
    q.rule ∈ Rule.registry.map (·.1) ∧ optionsOf reportFiles q = .ok {} ∧
      LintsTo ⟨{}⟩ reportFiles q.paths [[finding]] ∧
      Json.read (run reportFiles q).stdout.toList = .ok (.object [
        ("violations", .list [.object [
          ("rule", .str Rule.id), ("file", .str a.text), ("line", .int 7), ("column", .int 100),
          ("message", .str finding.message)]]),
        ("summary", .object [("files", .int 1), ("violations", .int 1)])]) := by
  intro a q finding
  have hid : q.rule ∈ Rule.registry.map (·.1) := List.mem_singleton.mpr rfl
  have ha : (Rule.lintFile ⟨{}⟩ reportFiles a).outcome = .ok [finding] := by decide +kernel
  have hlints : LintsTo ⟨{}⟩ reportFiles q.paths [[finding]] := .cons ha .nil
  have hone : 1 < 10 ^ Integer.digitLimit := Nat.one_lt_pow (by decide) (by decide)
  have hread := (json_report_reads_back hid rfl rfl hlints).2.1
  exact ⟨hid, rfl, hlints, hread.mpr ⟨hone, hone⟩⟩

end Report

end AttributeLint
