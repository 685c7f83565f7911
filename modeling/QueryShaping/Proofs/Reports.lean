import Mathlib
import QueryShaping.Command.Run
import QueryShaping.Proofs.Values

/-!
# Runs of the command as a whole

A run either fails and leaves everything as it was, apart from a file that could not be written to the
end, or it delivers the text of the shaped document to the one place that was asked for. The text
depends on the document alone: not on where the document comes from, not on where the text goes, and
not on the messages that are given.

## What this module delivers

- `FileSystem.find?_put`, `FileSystem.write_of_ok`: a written file, and all the others.
- `Invocation.ofArgs_toArgs`: every combination of options can be asked for.
- `Run.document`, `Run.outcome`: the document that a run reads, and what comes of it.
- `Run.Fails`, `Run.BreaksOff`, `Run.Delivers`, `Run.Ends`: how a run can end.
- `Run.perform_all_or_nothing`: how a run ends, for every document, place and switch.
-/

set_option autoImplicit false

namespace QueryShaping

/-! ## Files -/

namespace FileSystem

variable {fs after : FileSystem} {path : String} {content : ByteArray}

/-- A file that is put at a location has the new content, and every other file its old one. -/
theorem find?_put (fs : FileSystem) (l : Location) (content : ByteArray) (other : Location) :
    (fs.put l content).find? other = if other = l then some content else fs.find? other := by
  obtain ⟨files, directories, current, refusal?, shortage?⟩ := fs
  simp only [find?, put]
  induction files with
  | nil => exact lookup_cons_eq (l, content) [] other
  | cons file rest ih =>
    obtain ⟨first, kept⟩ := file
    rw [insert]
    split
    · next hfirst =>
      -- the file that is replaced is the one that would be found
      subst hfirst
      rw [lookup_cons_eq, lookup_cons_eq]
      split <;> rfl
    · next hfirst =>
      rw [lookup_cons_eq, lookup_cons_eq, ih]
      by_cases hother : other = first
      · have hname : other ≠ l := fun h => hfirst (hother.symm.trans h)
        rw [if_pos hother, if_pos hother, if_neg hname]
      · rw [if_neg hother, if_neg hother]

/-- A path that cannot be opened is not written to. -/
theorem write_of_error {cause : FileFault} (h : fs.openToWrite path = .error cause)
    (content : ByteArray) : fs.write path content = (.error cause, fs) := by
  rw [write, h]

/-- At the location that was opened stands what was written: all of it, unless the system stopped. No
other file is touched. -/
theorem write_of_ok {l : Location} (h : fs.openToWrite path = .ok l) (content : ByteArray) :
    ∃ kept, (fs.write path content).2 = fs.put l kept ∧
      ((fs.write path content).1 = .ok () → kept = content) := by
  rw [write, h]
  cases hshortage : fs.shortage? l with
  | none => exact ⟨content, by simp only [hshortage], fun _ => rfl⟩
  | some stop =>
    obtain ⟨size, words⟩ := stop
    simp only [hshortage]
    split
    · exact ⟨_, rfl, nofun⟩
    · exact ⟨content, rfl, fun _ => rfl⟩

end FileSystem

/-! ## Arguments -/

namespace Options

/-- The arguments that ask for options. -/
def toArgs (o : Options) : List String :=
  (o.input.map ("--input=" ++ ·)).toList ++ (o.output.map ("--output=" ++ ·)).toList
    ++ if o.pretty then ["--pretty"] else []

theorem ofList_ne {cs : List Char} {s : String} (h : cs ≠ s.toList) : String.ofList cs ≠ s := by
  rintro rfl
  exact h String.toList_ofList.symm

theorem readArg_input (o : Options) (path : String) :
    o.readArg ("--input=" ++ path) = .sets (o.setInput path) := by
  have hchars : ("--input=" ++ path).toList
      = '-' :: '-' :: 'i' :: 'n' :: 'p' :: 'u' :: 't' :: '=' :: path.toList := by
    rw [String.toList_append]
    rfl
  rw [readArg, hchars]
  simp only
  -- the name of the argument is none of the whole names
  rw [readLong, if_neg (ofList_ne (by simp)), if_neg (ofList_ne (by simp)),
    if_neg (ofList_ne (by simp)), if_neg (ofList_ne (by simp)), if_neg (ofList_ne (by simp))]
  simp [after?]

theorem readArg_output (o : Options) (path : String) :
    o.readArg ("--output=" ++ path) = .sets (o.setOutput path) := by
  have hchars : ("--output=" ++ path).toList
      = '-' :: '-' :: 'o' :: 'u' :: 't' :: 'p' :: 'u' :: 't' :: '=' :: path.toList := by
    rw [String.toList_append]
    rfl
  rw [readArg, hchars]
  simp only
  rw [readLong, if_neg (ofList_ne (by simp)), if_neg (ofList_ne (by simp)),
    if_neg (ofList_ne (by simp)), if_neg (ofList_ne (by simp)), if_neg (ofList_ne (by simp))]
  simp [after?]

/-- An argument that sets an option is followed by the others. -/
theorem ofArgs_cons {o after : Options} {arg : String} (h : o.readArg arg = .sets (some after))
    (rest : List String) : ofArgs o (arg :: rest) = ofArgs after rest := by
  cases rest <;> simp [ofArgs, h]

theorem setInput_eq_some {o : Options} {path : String} (ho : o.input = none) (hpath : path ≠ "") :
    o.setInput path = some { o with input := some path } := by
  simp [setInput, ho, hpath]

theorem setOutput_eq_some {o : Options} {path : String} (ho : o.output = none) (hpath : path ≠ "") :
    o.setOutput path = some { o with output := some path } := by
  simp [setOutput, ho, hpath]

/-- Each option is set by its own argument. -/
theorem ofArgs_toArgs {o : Options} (hinput : o.input ≠ some "") (houtput : o.output ≠ some "") :
    ofArgs initial o.toArgs = .done o := by
  obtain ⟨input, output, pretty⟩ := o
  have hfirst (rest : List String) : ofArgs initial ((input.map ("--input=" ++ ·)).toList ++ rest)
      = ofArgs ⟨input, none, false⟩ rest := by
    cases input with
    | none => rfl
    | some path =>
      have hpath : path ≠ "" := fun h => hinput (congrArg some h)
      refine ofArgs_cons ?_ rest
      rw [readArg_input, setInput_eq_some rfl hpath]
      rfl
  have hsecond (rest : List String) :
      ofArgs ⟨input, none, false⟩ ((output.map ("--output=" ++ ·)).toList ++ rest)
        = ofArgs ⟨input, output, false⟩ rest := by
    cases output with
    | none => rfl
    | some path =>
      have hpath : path ≠ "" := fun h => houtput (congrArg some h)
      refine ofArgs_cons ?_ rest
      rw [readArg_output, setOutput_eq_some rfl hpath]
  rw [toArgs, List.append_assoc, hfirst, hsecond]
  cases pretty <;> rfl

end Options

/-- Every combination of options can be asked for, with messages or without. -/
theorem Invocation.ofArgs_toArgs (verbose : Bool) {o : Options} (hinput : o.input ≠ some "")
    (houtput : o.output ≠ some "") :
    Invocation.ofArgs none ((if verbose then ["-v"] else []) ++ "compile" :: o.toArgs)
      = .compile verbose o := by
  have hsubcommand (switched : Bool) : ofArgsFrom none switched ("compile" :: o.toArgs)
      = .compile switched o := by
    rw [ofArgsFrom, if_pos rfl, ofSubcommand, Options.ofArgs_toArgs hinput houtput]
    cases switched <;> rfl
  cases verbose with
  | false => exact hsubcommand false
  | true => exact hsubcommand true

namespace Run

/-! ## What a run reads -/

/-- The bytes that a run reads: those of the file at the path of the input, or what comes in. -/
def bytes (o : Options) (w : Surroundings) : Except FileFault ByteArray :=
  match pathOf? o.input with
  | some path => w.files.read path
  | none => w.stdin

/-- The document that a run reads. -/
def document (o : Options) (w : Surroundings) : Except FileFault String := (bytes o w).bind decode

/-- The bytes of a text spell the text. -/
theorem decode_toUTF8 (s : String) : decode s.toUTF8 = .ok s := by
  have h : String.fromUTF8? s.toUTF8 = some s := dif_pos s.isValidUTF8
  rw [decode, h]

/-- What comes of a document: the text of the shaped document, or why there is none. -/
def outcome (o : Options) (w : Surroundings) : Except Failure String :=
  match document o w with
  | .error cause => .error (.unread (pathOf? o.input) cause)
  | .ok s => (Document.shapeText o.pretty s).mapError .document

theorem snd_shape (pretty : Bool) (s : String) :
    (shape pretty s).2 = (Document.shapeText pretty s).mapError .document := by
  rw [shape, Document.shapeText]
  cases Document.ofText s with
  | error cause => rfl
  | ok d =>
    cases hshape : d.shape with
    | error cause => simp [bind, Except.bind, hshape, Except.map, Except.mapError]
    | ok st => simp [bind, Except.bind, hshape, Except.map, Except.mapError, pure, Except.pure]

/-- The end of a run, once it is known what comes of the document. -/
def conclude (o : Options) (w : Surroundings) (lines : List String) :
    Except Failure String → Nat × Trace
  | .error f => fail w.host f ⟨"", lines, w.files⟩
  | .ok out => deliver w.host o out ⟨"", lines, w.files⟩

/-- Nothing is printed or written before all else is done. -/
theorem compile_eq_conclude (verbose : Bool) (o : Options) (w : Surroundings) :
    ∃ lines, compile w.host verbose o ⟨"", [], w.files⟩ = conclude o w lines (outcome o w) := by
  have hstart : compile w.host verbose o ⟨"", [], w.files⟩
      = (match document o w with
        | .error cause => fail w.host (.unread (pathOf? o.input) cause)
        | .ok text => do
          w.host.tell (noticeLines verbose (shape o.pretty text).1)
          match (shape o.pretty text).2 with
          | .error f => fail w.host f
          | .ok out => deliver w.host o out)
        ⟨"", [] ++ noticeLines verbose [.started o], w.files⟩ := by
    rw [document, bytes, compile, fetch]
    cases pathOf? o.input <;> rfl
  rw [hstart, outcome]
  cases document o w with
  | error cause => exact ⟨_, rfl⟩
  | ok s =>
    simp only [← snd_shape]
    refine ⟨[] ++ noticeLines verbose [.started o] ++ noticeLines verbose (shape o.pretty s).1, ?_⟩
    cases hresult : (shape o.pretty s).2 <;> rfl

/-! ## How a run ends -/

/-- The run fails, and nothing but its messages tells of it. -/
structure Fails (w : Surroundings) (r : Report) : Prop where
  code : r.code = 1
  stdout : r.stdout = ""
  files : r.files = w.files

/-- The run fails while it writes to a location. Nothing is printed, and no other file changes. -/
structure BreaksOff (w : Surroundings) (l : Location) (r : Report) : Prop where
  code : r.code = 1
  stdout : r.stdout = ""
  files : ∀ other, other ≠ l → r.files.find? other = w.files.find? other

/-- The run succeeds, and the text is in the one place that was asked for. -/
inductive Delivers (o : Options) (w : Surroundings) (out : String) (r : Report) : Prop where
  /-- The text is printed with a line break, and no file changes. -/
  | printed (output : pathOf? o.output = none) (code : r.code = 0) (stdout : r.stdout = out ++ "\n")
    (files : r.files = w.files)
  /-- The text is in its file, nothing is printed, and no other file changes. -/
  | saved (path : String) (l : Location) (output : pathOf? o.output = some path) (code : r.code = 0)
    (stdout : r.stdout = "") (opened : w.files.openToWrite path = .ok l)
    (files : ∀ other, r.files.find? other
      = if other = l then some out.toUTF8 else w.files.find? other)

/-- The run delivers one text only. -/
theorem Delivers.unique {o : Options} {w : Surroundings} {out out' : String} {r : Report}
    (h : Delivers o w out r) (h' : Delivers o w out' r) : out' = out := by
  cases h with
  | printed output code stdout files =>
    cases h' with
    | printed output' code' stdout' files' =>
      exact (String.append_left_inj _).1 (stdout'.symm.trans stdout)
    | saved path' l' output' code' stdout' opened' files' => cases output.symm.trans output'
  | saved path l output code stdout opened files =>
    cases h' with
    | printed output' code' stdout' files' => cases output.symm.trans output'
    | saved path' l' output' code' stdout' opened' files' =>
      obtain rfl := Option.some.inj (output.symm.trans output')
      obtain rfl := Except.ok.inj (opened.symm.trans opened')
      have hfile := (files' l).symm.trans (files l)
      rw [if_pos rfl, if_pos rfl] at hfile
      exact String.toByteArray_inj.1 (Option.some.inj hfile)

theorem Delivers.code {o : Options} {w : Surroundings} {out : String} {r : Report}
    (h : Delivers o w out r) : r.code = 0 := by
  cases h <;> assumption

/-- Two reports that differ in nothing but the messages. -/
structure Report.SameButMessages (r r' : Report) : Prop where
  code : r'.code = r.code
  stdout : r'.stdout = r.stdout
  files : r'.files = r.files

section Conclude

variable {o : Options} {w : Surroundings} {out path : String}

/-- A text that is printed, and one that cannot be. -/
theorem deliver_printed (houtput : pathOf? o.output = none) (hclosed : w.closed = none)
    (lines : List String) :
    deliver w.host o out ⟨"", lines, w.files⟩ = (0, ⟨"" ++ (out ++ "\n"), lines, w.files⟩) := by
  obtain ⟨stdin, closed, files⟩ := w
  subst hclosed
  rw [deliver, houtput]
  rfl

theorem deliver_unprinted {cause : FileFault} (houtput : pathOf? o.output = none)
    (hclosed : w.closed = some cause) (lines : List String) :
    deliver w.host o out ⟨"", lines, w.files⟩
      = (1, ⟨"", lines ++ (Failure.unwritten none cause).lines, w.files⟩) := by
  obtain ⟨stdin, closed, files⟩ := w
  subst hclosed
  rw [deliver, houtput]
  rfl

/-- What comes of writing a file decides how the run goes on. -/
theorem deliver_to (houtput : pathOf? o.output = some path) (lines : List String) :
    deliver w.host o out ⟨"", lines, w.files⟩
      = (match (w.files.write path out.toUTF8).1 with
        | .ok () => do
          w.host.tell (Notice.wrote path).lines
          return 0
        | .error cause => fail w.host (.unwritten (some path) cause))
        ⟨"", lines, (w.files.write path out.toUTF8).2⟩ := by
  rw [deliver, houtput]
  rfl

theorem deliver_saved (houtput : pathOf? o.output = some path)
    (hwrite : (w.files.write path out.toUTF8).1 = .ok ()) (lines : List String) :
    deliver w.host o out ⟨"", lines, w.files⟩
      = (0, ⟨"", lines ++ (Notice.wrote path).lines, (w.files.write path out.toUTF8).2⟩) := by
  rw [deliver_to houtput, hwrite]
  rfl

theorem deliver_unsaved {cause : FileFault} (houtput : pathOf? o.output = some path)
    (hwrite : (w.files.write path out.toUTF8).1 = .error cause) (lines : List String) :
    deliver w.host o out ⟨"", lines, w.files⟩
      = (1, ⟨"", lines ++ (Failure.unwritten (some path) cause).lines,
        (w.files.write path out.toUTF8).2⟩) := by
  rw [deliver_to houtput, hwrite]
  rfl

end Conclude

/-- The report of a run that has ended. -/
def reportOf (ended : Nat × Trace) : Report := ⟨ended.2, ended.1⟩

/-- The messages before the end have no part in it. -/
theorem sameButMessages_conclude (o : Options) (w : Surroundings) (lines lines' : List String)
    (result : Except Failure String) :
    (reportOf (conclude o w lines result)).SameButMessages
      (reportOf (conclude o w lines' result)) := by
  cases result with
  | error f => exact ⟨rfl, rfl, rfl⟩
  | ok out =>
    rw [conclude, conclude]
    cases houtput : pathOf? o.output with
    | none =>
      cases hclosed : w.closed with
      | none =>
        rw [deliver_printed houtput hclosed, deliver_printed houtput hclosed]
        exact ⟨rfl, rfl, rfl⟩
      | some cause =>
        rw [deliver_unprinted houtput hclosed, deliver_unprinted houtput hclosed]
        exact ⟨rfl, rfl, rfl⟩
    | some path =>
      cases hwrite : (w.files.write path out.toUTF8).1 with
      | ok u =>
        rw [deliver_saved houtput hwrite, deliver_saved houtput hwrite]
        exact ⟨rfl, rfl, rfl⟩
      | error cause =>
        rw [deliver_unsaved houtput hwrite, deliver_unsaved houtput hwrite]
        exact ⟨rfl, rfl, rfl⟩

/-- How a run can end. -/
inductive Ends (o : Options) (w : Surroundings) (r : Report) : Prop where
  /-- The document cannot be read, or its bytes spell no text. -/
  | unread (cause : FileFault) (read : document o w = .error cause) (fails : Fails w r)
  /-- The document cannot be shaped. -/
  | unshaped (s : String) (cause : Document.Failure) (read : document o w = .ok s)
    (shaped : Document.shapeText o.pretty s = .error cause) (fails : Fails w r)
  /-- The text cannot be printed. -/
  | unprinted (s out : String) (cause : FileFault) (read : document o w = .ok s)
    (shaped : Document.shapeText o.pretty s = .ok out) (output : pathOf? o.output = none)
    (closed : w.closed = some cause) (fails : Fails w r)
  /-- The file for the text cannot be opened. -/
  | unopened (s out path : String) (cause : FileFault) (read : document o w = .ok s)
    (shaped : Document.shapeText o.pretty s = .ok out) (output : pathOf? o.output = some path)
    (opened : w.files.openToWrite path = .error cause) (fails : Fails w r)
  /-- The file for the text is opened, but not all of the text can be written. -/
  | unwritten (s out path : String) (l : Location) (cause : FileFault) (read : document o w = .ok s)
    (shaped : Document.shapeText o.pretty s = .ok out) (output : pathOf? o.output = some path)
    (opened : w.files.openToWrite path = .ok l)
    (written : (w.files.write path out.toUTF8).1 = .error cause) (breaksOff : BreaksOff w l r)
  /-- The text is delivered. -/
  | done (s out : String) (read : document o w = .ok s)
    (shaped : Document.shapeText o.pretty s = .ok out) (delivers : Delivers o w out r)

theorem fails_conclude (o : Options) (w : Surroundings) (lines : List String) (f : Failure) :
    Fails w (reportOf (conclude o w lines (.error f))) :=
  ⟨rfl, rfl, rfl⟩

/-- What comes of a text that is there to be delivered. -/
theorem ends_deliver {o : Options} {w : Surroundings} {s out : String}
    (hread : document o w = .ok s) (hshaped : Document.shapeText o.pretty s = .ok out)
    (lines : List String) : Ends o w (reportOf (conclude o w lines (.ok out))) := by
  rw [conclude]
  cases houtput : pathOf? o.output with
  | none =>
    cases hclosed : w.closed with
    | none =>
      rw [deliver_printed houtput hclosed, String.empty_append]
      exact .done s out hread hshaped (.printed houtput rfl rfl rfl)
    | some cause =>
      rw [deliver_unprinted houtput hclosed]
      exact .unprinted s out cause hread hshaped houtput hclosed ⟨rfl, rfl, rfl⟩
  | some path =>
    cases hopen : w.files.openToWrite path with
    | error cause =>
      have hwrite := FileSystem.write_of_error hopen out.toUTF8
      rw [deliver_unsaved houtput (congrArg Prod.fst hwrite), hwrite]
      exact .unopened s out path cause hread hshaped houtput hopen ⟨rfl, rfl, rfl⟩
    | ok l =>
      obtain ⟨kept, hfiles, hkept⟩ := FileSystem.write_of_ok hopen out.toUTF8
      cases hwrite : (w.files.write path out.toUTF8).1 with
      | ok u =>
        rw [deliver_saved houtput hwrite, hfiles]
        obtain rfl := hkept hwrite
        exact .done s out hread hshaped
          (.saved path l houtput rfl rfl hopen (w.files.find?_put l out.toUTF8))
      | error cause =>
        rw [deliver_unsaved houtput hwrite, hfiles]
        refine .unwritten s out path l cause hread hshaped houtput hopen hwrite ⟨rfl, rfl, ?_⟩
        exact fun other hother => (w.files.find?_put l kept other).trans (if_neg hother)

theorem ends_conclude (o : Options) (w : Surroundings) (lines : List String) :
    Ends o w (reportOf (conclude o w lines (outcome o w))) := by
  rw [outcome]
  cases hread : document o w with
  | error cause => exact .unread cause hread (fails_conclude o w lines _)
  | ok s =>
    simp only
    cases hshaped : Document.shapeText o.pretty s with
    | error cause => exact .unshaped s cause hread hshaped (fails_conclude o w lines _)
    | ok out => exact ends_deliver hread hshaped lines

/-- What a run delivers is the text of the document that it has read. -/
theorem Ends.text {o : Options} {w : Surroundings} {r : Report} {out : String} (h : Ends o w r)
    (hout : Delivers o w out r) :
    ∃ s, document o w = .ok s ∧ Document.shapeText o.pretty s = .ok out := by
  -- a run that fails ends with another code
  have hfails (hr : r.code = 1) : False := by cases hr.symm.trans hout.code
  cases h with
  | unread cause read fails => exact (hfails fails.code).elim
  | unshaped s cause read shaped fails => exact (hfails fails.code).elim
  | unprinted s out cause read shaped output closed fails => exact (hfails fails.code).elim
  | unopened s out path cause read shaped output opened fails => exact (hfails fails.code).elim
  | unwritten s out path l cause read shaped output opened written breaksOff =>
    exact (hfails breaksOff.code).elim
  | done s out' read shaped delivers =>
    obtain rfl := delivers.unique hout
    exact ⟨s, read, shaped⟩

theorem perform_eq_conclude {setting : Option String} {args : List String} {verbose : Bool}
    {o : Options} (hargs : Invocation.ofArgs setting args = .compile verbose o)
    (w : Surroundings) :
    ∃ lines, perform setting args w = reportOf (conclude o w lines (outcome o w)) := by
  obtain ⟨lines, hrun⟩ := compile_eq_conclude verbose o w
  refine ⟨lines, ?_⟩
  rw [perform, command, hargs, ← hrun]
  rfl

/-- How every run of the subcommand ends, whatever the arguments that ask for it: it fails and
leaves all as it was, apart from a file that it could not write to the end, or it delivers the text of
the shaped document. Runs with the same options differ in their messages only, and runs on the same
document deliver the same text, wherever the document comes from and wherever the text goes. -/
theorem perform_all_or_nothing {setting : Option String} {args : List String} {verbose : Bool}
    {o : Options} (hargs : Invocation.ofArgs setting args = .compile verbose o)
    (w : Surroundings) :
    Ends o w (perform setting args w) ∧
    ∀ setting' args' verbose' o', Invocation.ofArgs setting' args' = .compile verbose' o' →
      (o' = o → (perform setting args w).SameButMessages (perform setting' args' w)) ∧
      ∀ w' out out', o'.pretty = o.pretty → document o' w' = document o w →
        Delivers o w out (perform setting args w) →
          Delivers o' w' out' (perform setting' args' w') → out' = out := by
  obtain ⟨lines, hrun⟩ := perform_eq_conclude hargs w
  rw [hrun]
  refine ⟨ends_conclude o w lines, fun setting' args' verbose' o' hargs' => ⟨?_, ?_⟩⟩
  · rintro rfl
    obtain ⟨lines', hrun'⟩ := perform_eq_conclude hargs' w
    rw [hrun']
    exact sameButMessages_conclude o' w lines lines' _
  · intro w' out out' hpretty hsame hout hout'
    obtain ⟨lines', hrun'⟩ := perform_eq_conclude hargs' w'
    rw [hrun'] at hout'
    obtain ⟨s, hread, hshaped⟩ := (ends_conclude o w lines).text hout
    obtain ⟨s', hread', hshaped'⟩ := (ends_conclude o' w' lines').text hout'
    -- both runs have shaped the same document in the same layout
    obtain rfl := Except.ok.inj (hread'.symm.trans (hsame.trans hread))
    rw [hpretty] at hshaped'
    exact Except.ok.inj (hshaped'.symm.trans hshaped)

/-- A document with a limit, and the text that it gives. -/
def limited : String := "\x7b\"queryAST\":\x7b\"type\":\"select\"\x7d,\"limit\":3\x7d"

def limitedText : String :=
  "\x7b\"type\":\"select\",\"distinct\":null,\"columns\":[],\"from\":[],\"where\":null," ++
    "\"groupby\":null,\"orderby\":null,\"limit\":[\x7b\"type\":\"number\",\"value\":0\x7d," ++
    "\x7b\"type\":\"number\",\"value\":3\x7d]\x7d"

/-- Two files in directories, one of which cannot be opened for writing. Nothing comes in, and what is
printed goes nowhere. -/
def twoFiles : Surroundings where
  stdin := .ok ByteArray.empty
  closed := some (.other "Broken pipe (os error 32)")
  files := {
    files := [(["work", "in", "a.json"], limited.toUTF8), (["work", "b.json"], ByteArray.empty)]
    directories := []
    current := ["work"]
    refusal? := fun _ l =>
      if l = ["work", "b.json"] then some "Permission denied (os error 13)" else none
    shortage? := fun _ => none }

/-- Options that ask for the text of the first file in place of the document in it. -/
def inPlace : Options := ⟨some "in/a.json", some "/work/./in/../in/a.json", false⟩

/-- The text takes the place of the document, and the other file stays. -/
theorem perform_inPlace :
    Delivers inPlace twoFiles limitedText
      (perform none ["-v", "compile", "--input=in/a.json", "--output=/work/./in/../in/a.json"]
        twoFiles) := by
  have hargs : Invocation.ofArgs none
      ["-v", "compile", "--input=in/a.json", "--output=/work/./in/../in/a.json"]
      = .compile true inPlace := Invocation.ofArgs_toArgs true (o := inPlace) (by decide) (by decide)
  have hinput : pathOf? inPlace.input = some "in/a.json" := by decide
  have houtput : pathOf? inPlace.output = some "/work/./in/../in/a.json" := by decide
  have htarget : twoFiles.files.target "in/a.json" = .ok ⟨["work", "in", "a.json"], false⟩ := by
    decide
  have hread : document inPlace twoFiles = .ok limited := by
    have hfile : twoFiles.files.read "in/a.json" = .ok limited.toUTF8 := by
      rw [FileSystem.read, htarget]
      rfl
    rw [document, bytes, hinput]
    simp only [hfile]
    exact decode_toUTF8 limited
  have hopened : twoFiles.files.openToWrite "/work/./in/../in/a.json"
      = .ok ["work", "in", "a.json"] := by cbv
  have hshaped : Document.shapeText false limited = .ok limitedText := by cbv
  cases (perform_all_or_nothing hargs twoFiles).1 with
  | unread cause read fails => cases hread.symm.trans read
  | unshaped s cause read shaped fails =>
    obtain rfl := Except.ok.inj (hread.symm.trans read)
    cases hshaped.symm.trans shaped
  | unprinted s out cause read shaped output closed fails => cases houtput.symm.trans output
  | unopened s out path cause read shaped output opened fails =>
    obtain rfl := Option.some.inj (houtput.symm.trans output)
    cases hopened.symm.trans opened
  | unwritten s out path l cause read shaped output opened written breaksOff =>
    -- the system stops nowhere
    obtain rfl := Option.some.inj (houtput.symm.trans output)
    rw [FileSystem.write, hopened] at written
    cases written
  | done s out read shaped delivers =>
    obtain rfl := Except.ok.inj (hread.symm.trans read)
    obtain rfl := Except.ok.inj (hshaped.symm.trans shaped)
    exact delivers

end Run

end QueryShaping
