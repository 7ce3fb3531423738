import Calculator.CommandLine.Run
import Calculator.Proofs.Session.Evaluation
import Mathlib.Data.List.Forall2
import Mathlib.Data.List.TakeWhile

/-!
# Reports in plain text and in JSON

A run with JSON goes through the same events as a run without, and ends with the same exit code.
The events are the evaluations of the expressions up to the first failure, or the replies to the
lines of the input up to one that asks to leave. In JSON each of them is one object on a line of its
own, and the object says of the event what plain text says of it: the result that is shown, or the
message that is written to the standard error.
-/

namespace Calculator

/-! ## The text of a JSON value -/

namespace Json

/-- A newline is escaped. -/
theorem newline_notMem_escapeChar (c : Char) : '\n' ∉ escapeChar c := by
  have digit (n : Nat) : hexDigit n ≠ '\n' := by
    have each : ∀ k < 16, Nat.digitChar k ≠ '\n' := by decide
    exact each _ (Nat.mod_lt _ (by decide))
  by_cases newline : c = '\n'
  · rw [newline]
    decide
  · unfold escapeChar
    repeat' split
    all_goals simp [Ne.symm newline, Ne.symm (digit _)]

theorem newline_notMem_append {s t : String} (first : '\n' ∉ s.toList) (second : '\n' ∉ t.toList) :
    '\n' ∉ (s ++ t).toList := by
  rw [String.toList_append, List.mem_append, not_or]
  exact ⟨first, second⟩

/-- A quoted text has no newline in it. -/
theorem newline_notMem_quote (text : String) : '\n' ∉ (quote text).toList := by
  have escaped : '\n' ∉ text.toList.flatMap escapeChar := by
    intro mem
    obtain ⟨c, -, mem⟩ := List.mem_flatMap.1 mem
    exact newline_notMem_escapeChar c mem
  rw [quote, String.toList_ofList]
  simp [escaped]

theorem newline_notMem_repr (n : Nat) : '\n' ∉ n.repr.toList := by
  intro mem
  rw [Nat.toList_repr] at mem
  have digit := Nat.isDigit_of_mem_toDigits (by decide) (by decide) mem
  cases digit

mutual

/-- The text of a value is a single line. -/
theorem newline_notMem_write : ∀ value : Json, '\n' ∉ value.write.toList
  | null => by decide
  | boolean value => by cases value <;> decide
  | number coefficient places => by
    rw [write]
    apply newline_notMem_append
    · cases coefficient with
      | ofNat n => exact newline_notMem_repr n
      | negSucc n => exact newline_notMem_append (by decide) (newline_notMem_repr n.succ)
    · split
      · decide
      · exact newline_notMem_append (by decide) (newline_notMem_repr places)
  | text value => newline_notMem_quote value
  | list items => by
    rw [write]
    have inner := newline_notMem_writeItems items
    exact newline_notMem_append (newline_notMem_append (by decide) inner) (by decide)
  | object fields => by
    rw [write]
    have inner := newline_notMem_writeFields fields
    exact newline_notMem_append (newline_notMem_append (by decide) inner) (by decide)

/-- Items are written on one line. -/
theorem newline_notMem_writeItems : ∀ items : List Json, '\n' ∉ (writeItems items).toList
  | [] => by decide
  | [item] => by
    rw [writeItems]
    exact newline_notMem_write item
  | item :: next :: rest => by
    rw [writeItems]
    · have first := newline_notMem_append (newline_notMem_write item) (t := ",") (by decide)
      exact newline_notMem_append first (newline_notMem_writeItems (next :: rest))
    · exact nofun

/-- Fields are written on one line. -/
theorem newline_notMem_writeFields :
    ∀ fields : List (String × Json), '\n' ∉ (writeFields fields).toList
  | [] => by decide
  | [(name, value)] => by
    have named := newline_notMem_append (newline_notMem_quote name) (t := ":") (by decide)
    rw [writeFields]
    exact newline_notMem_append named (newline_notMem_write value)
  | (name, value) :: next :: rest => by
    have named := newline_notMem_append (newline_notMem_quote name) (t := ":") (by decide)
    rw [writeFields]
    · have first := newline_notMem_append (newline_notMem_append named (newline_notMem_write value))
        (t := ",") (by decide)
      exact newline_notMem_append first (newline_notMem_writeFields (next :: rest))
    · exact nofun

end

end Json

/-! ## Lines that ask to leave -/

namespace Line

/-- The line asks to leave: but for the blanks around it, it is one of two words, with or without a
mark in front, in any case of its letters. -/
def Leaves (text : String) : Prop :=
  ∃ word ∈ ["exit", "quit"], Text.lowercase (String.ofList (Text.trim text.toList)) = word ∨
    Text.lowercase (String.ofList (Text.trim text.toList)) = "#" ++ word

instance : DecidablePred Leaves := fun _ => inferInstanceAs (Decidable (∃ word ∈ _, _ ∨ _))

/-- A word is read with and without a mark in front. -/
theorem withoutHash_eq_iff {cs word : List Char} (unmarked : word.head? ≠ some '#') :
    withoutHash cs = word ↔ cs = word ∨ cs = '#' :: word := by
  unfold withoutHash
  split
  · rename_i rest
    constructor
    · rintro rfl
      exact .inr rfl
    · rintro (rfl | same)
      · exact absurd rfl unmarked
      · exact (List.cons.inj same).2
  · rename_i plain
    constructor
    · exact .inl
    · rintro (same | same)
      · exact same
      · exact absurd same (plain word)

/-- The lines that end a run are exactly those that ask to leave. -/
theorem ofText_eq_exit_iff {text : String} : ofText text = .exit ↔ Leaves text := by
  have word_mem : withoutHash (Text.lowercase (String.ofList (Text.trim text.toList))).toList ∈
      ["exit".toList, "quit".toList] ↔ Leaves text := by
    unfold Leaves
    generalize Text.lowercase (String.ofList (Text.trim text.toList)) = lower
    have marked (word : String) : ("#" ++ word).toList = '#' :: word.toList := by
      rw [String.toList_append]
      rfl
    simp only [List.mem_cons, List.not_mem_nil, or_false, exists_eq_or_imp, exists_eq_left]
    simp only [← String.toList_inj, marked]
    rw [withoutHash_eq_iff (by decide), withoutHash_eq_iff (by decide)]
  rw [← word_mem]
  unfold ofText
  dsimp only
  constructor
  · intro leaves
    by_contra stays
    rw [if_neg stays] at leaves
    split at leaves
    · cases leaves
    · split at leaves <;> cases leaves
  · intro mem
    exact if_pos mem

end Line

namespace CommandLine

/-- A line and its end are split off the front of a text. -/
theorem splitLines_append {line : List Char} (single : '\n' ∉ line) (rest : List Char) :
    splitLines (line ++ '\n' :: rest) = line :: splitLines rest := by
  induction line with
  | nil => rfl
  | cons c line ih =>
    rw [List.mem_cons, not_or] at single
    rw [List.cons_append, splitLines, if_neg (Ne.symm single.1), ih single.2]

/-! ## Events -/

/-- The evaluation has no value. -/
def failed (evaluation : Except EvalError Complex × Session) : Bool :=
  match evaluation.1 with
  | .ok _ => false
  | .error _ => true

/-- The evaluations of texts one after the other, up to and including the first failure. -/
def upToFailure (session : Session) (texts : List String) :
    List (Except EvalError Complex × Session) :=
  (session.history texts).take ((session.history texts).findIdx failed + 1)

/-- An evaluation as an event. -/
def Event.ofEvaluation (evaluation : Except EvalError Complex × Session) : Event :=
  ⟨.value evaluation.1, evaluation.2⟩

/-- The expressions are evaluated up to the first failure. -/
theorem expressionEvents_eq (session : Session) (texts : List String) :
    expressionEvents session texts = (upToFailure session texts).map Event.ofEvaluation := by
  induction texts generalizing session with
  | nil => rfl
  | cons text rest ih =>
    rw [expressionEvents, upToFailure, Session.history]
    rcases session.evaluate text with ⟨error | z, after⟩
    · rfl
    · show Event.ofEvaluation (.ok z, after) :: expressionEvents after rest = _
      rw [ih, List.findIdx_cons]
      rfl

/-- An event succeeds when the evaluation does. -/
theorem succeeded_ofEvaluation (evaluation : Except EvalError Complex × Session) :
    (Event.ofEvaluation evaluation).succeeded = !failed evaluation := by
  obtain ⟨answer, after⟩ := evaluation
  cases answer <;> rfl

/-- The lines that are answered: those that are not blank, without the blanks around them, up to the
first that asks to leave. -/
def answeredLines (input : String) : List String :=
  (((splitLines input.toList).map fun line => String.ofList (Text.trim line)).filter
    (!·.isEmpty)).takeWhile (¬Line.Leaves ·)

example : answeredLines "x = 2\n\n #VAR \nExit\n3" = ["x = 2", "#VAR"] := by decide +kernel

/-- The replies to lines, each in the session that the one before leaves. -/
def submitEach (session : Session) : List String → List Event
  | [] => []
  | line :: rest =>
    let (reply, after) := session.submit line
    ⟨reply, after⟩ :: submitEach after rest

/-- A line that asks to leave changes nothing. -/
theorem submit_of_leaves {session : Session} {line : String} (leaves : Line.Leaves line) :
    session.submit line = (.exit, session) := by
  unfold Session.submit
  rw [Line.ofText_eq_exit_iff.2 leaves]

/-- A line that does not ask to leave has another reply. -/
theorem submit_ne_exit {session : Session} {line : String} (stays : ¬Line.Leaves line) :
    (session.submit line).1 ≠ .exit := by
  unfold Session.submit
  split
  · exact absurd (Line.ofText_eq_exit_iff.1 ‹_›) stays
  · exact nofun
  · exact nofun

/-- The lines of the input are submitted one after the other. -/
theorem lineEvents_eq (session : Session) (input : String) :
    lineEvents session ((splitLines input.toList).map String.ofList) =
      submitEach session (answeredLines input) := by
  unfold answeredLines
  induction splitLines input.toList generalizing session with
  | nil => rfl
  | cons line rest ih =>
    rw [List.map_cons, List.map_cons, lineEvents, lineOutcome, String.toList_ofList]
    generalize String.ofList (Text.trim line) = text
    cases blank : text.isEmpty with
    | true =>
      rw [List.filter_cons_of_neg (by simp [blank])]
      exact ih session
    | false =>
      rw [List.filter_cons_of_pos (by simp [blank])]
      by_cases leaves : Line.Leaves text
      · rw [List.takeWhile_cons_of_neg (by simp [leaves])]
        rw [submit_of_leaves leaves]
        rfl
      · have stays : (session.submit text).1 ≠ .exit := submit_ne_exit leaves
        rw [List.takeWhile_cons_of_pos (by simpa using leaves), submitEach]
        revert stays
        rcases session.submit text with ⟨reply, after⟩
        intro stays
        cases reply with
        | exit => exact absurd rfl stays
        | printed output => exact congrArg _ (ih after)
        | value answer => exact congrArg _ (ih after)

/-! ## What is told of an event -/

/-- The JSON object that tells of an error with this code and message. -/
def errorReport (code message : String) : Json :=
  .object [("error", .object [("code", .text code), ("message", .text message)])]

/-- Plain text shows the result: for a command its text without the blanks at the end, and for an
evaluation a line of its own. -/
def Event.Shows (event : Event) (result : String) : Prop :=
  match event.reply with
  | .printed _ =>
    event.plain.stderr = "" ∧ result = String.ofList (Text.trimEnd event.plain.stdout.toList)
  | _ => event.plain = .line result

/-- The object says of the event what plain text says of it: the result that is shown, or the
message that is written to the standard error instead. -/
structure Event.Told (event : Event) (object : Json) : Prop where
  result : ∀ text, object = resultObject text ↔ event.Shows text
  message : ∀ text, (∃ code, object = errorReport code text) ↔ event.plain = .errorLine text
  code : ∀ error, event.reply = .value (.error error) →
    object = errorReport error.code error.message

/-- Lines of the standard output tell their texts apart. -/
theorem line_injective {s t : String} : Output.line s = .line t ↔ s = t := by
  simp [Output.line]

/-- Lines of the standard error tell their texts apart. -/
theorem errorLine_injective {s t : String} : Output.errorLine s = .errorLine t ↔ s = t := by
  simp [Output.errorLine]

theorem line_ne_errorLine (s t : String) : Output.line s ≠ .errorLine t := by
  simp [Output.line, Output.errorLine]

/-- Every reply but the leave-taking is told in one object on a line. -/
theorem exists_told {event : Event} (answered : event.reply ≠ .exit) :
    ∃ object : Json, event.json = .line object.write ∧ event.Told object := by
  obtain ⟨reply, session⟩ := event
  cases reply with
  | exit => exact absurd rfl answered
  | printed output =>
    refine ⟨resultObject (String.ofList (Text.trimEnd output.toList)), rfl, ?_, ?_, ?_⟩
    · intro text
      simp [resultObject, Event.Shows, Event.plain, eq_comm]
    · intro text
      simp [resultObject, errorReport, Event.plain, Output.errorLine]
    · exact nofun
  | value answer =>
    cases answer with
    | ok z =>
      refine ⟨resultObject (session.render z), rfl, ?_, ?_, ?_⟩
      · intro text
        simp [resultObject, Event.Shows, Event.plain, line_injective]
      · intro text
        simp [resultObject, errorReport, Event.plain, line_ne_errorLine]
      · exact nofun
    | error error =>
      refine ⟨errorObject error, rfl, ?_, ?_, ?_⟩
      · intro text
        simp [resultObject, errorObject, Event.Shows, Event.plain, (line_ne_errorLine _ _).symm]
      · intro text
        simp [errorReport, errorObject, Event.plain, errorLine_injective]
      · rintro error ⟨⟩
        rfl

/-! ## Runs -/

/-- Two runs report the same events and end alike, the one in plain text and the other in JSON. -/
structure ReportAlike (events : List Event) (plain json : Ending) : Prop where
  code : plain.code = json.code
  stdout : plain.output.stdout = String.join (events.map (·.plain.stdout))
  stderr : plain.output.stderr = String.join (events.map (·.plain.stderr))
  quiet : json.output.stderr = ""
  /-- Each event is one object on a line, and nothing is written after the last line. -/
  objects : ∃ objects : List Json,
    splitLines json.output.stdout.toList = objects.map (·.write.toList) ++ [[]] ∧
      List.Forall₂ Event.Told events objects

/-- Events without a departure are reported alike in both forms. -/
theorem reportAlike_reports (code : Nat) {events : List Event}
    (answered : ∀ event ∈ events, event.reply ≠ .exit) :
    ReportAlike events ⟨code, reports false events⟩ ⟨code, reports true events⟩ := by
  induction events with
  | nil => exact ⟨rfl, rfl, rfl, rfl, [], rfl, .nil⟩
  | cons event rest ih =>
    obtain ⟨object, written, told⟩ := exists_told (answered event List.mem_cons_self)
    obtain ⟨-, stdout, stderr, quiet, objects, lines, others⟩ :=
      ih fun event mem => answered event (List.mem_cons_of_mem _ mem)
    have json : reports true (event :: rest) =
        (Output.line object.write).append (reports true rest) := by
      rw [← written]
      rfl
    refine ⟨rfl, ?_, ?_, ?_, object :: objects, ?_, .cons told others⟩
    · rw [List.map_cons, String.join_cons, ← stdout]
      rfl
    · rw [List.map_cons, String.join_cons, ← stderr]
      rfl
    · show (reports true (event :: rest)).stderr = ""
      rw [json]
      show "" ++ (reports true rest).stderr = ""
      rw [quiet]
      rfl
    · have front : ((Output.line object.write).append (reports true rest)).stdout.toList =
          object.write.toList ++ '\n' :: (reports true rest).stdout.toList := by
        simp [Output.append, Output.line]
      rw [json, front, splitLines_append object.newline_notMem_write, lines]
      rfl

/-- Lines that do not ask to leave are not replied to by leaving. -/
theorem reply_ne_exit_of_mem_submitEach {session : Session} {lines : List String}
    (stay : ∀ line ∈ lines, ¬Line.Leaves line) :
    ∀ event ∈ submitEach session lines, event.reply ≠ .exit := by
  induction lines generalizing session with
  | nil => exact fun event mem => absurd mem List.not_mem_nil
  | cons line rest ih =>
    have stays : (session.submit line).1 ≠ .exit := submit_ne_exit (stay line List.mem_cons_self)
    have others := fun line mem => stay line (List.mem_cons_of_mem _ mem)
    rw [submitEach]
    revert stays
    rcases session.submit line with ⟨reply, after⟩
    intro stays event mem
    rcases List.mem_cons.1 mem with rfl | mem
    · exact stays
    · exact ih others event mem

/-- No line that is answered asks to leave. -/
theorem not_leaves_of_mem {input line : String} (mem : line ∈ answeredLines input) :
    ¬Line.Leaves line := by
  simpa using List.mem_takeWhile_imp mem

/-- The exit code tells whether an expression failed. -/
theorem exitCode_expressionEvents (session : Session) (texts : List String) :
    (if (expressionEvents session texts).all Event.succeeded then 0 else 1) =
      if (upToFailure session texts).any failed then 1 else 0 := by
  have each : Event.succeeded ∘ Event.ofEvaluation = fun evaluation => !failed evaluation :=
    funext succeeded_ofEvaluation
  rw [expressionEvents_eq, List.all_map, each, ← List.not_any_eq_all_not]
  cases (upToFailure session texts).any failed <;> rfl

/-- With and without JSON, and with the same options otherwise, the program goes through the same
events and ends with the same exit code. With expressions these are their evaluations up to the
first failure, which sets the code; without, they are the replies to the lines of the input. Each
event is one object, and the object says what plain text says. -/
theorem run_json_like_plain {plainArguments jsonArguments : List String} {options : Options}
    (plain : Options.ofArguments plainArguments = .ok { options with json := false })
    (json : Options.ofArguments jsonArguments = .ok { options with json := true })
    (input : String) :
    (options.expressions ≠ [] →
      ReportAlike ((upToFailure options.session options.expressions).map Event.ofEvaluation)
        (run plainArguments input) (run jsonArguments input) ∧
      (run jsonArguments input).code =
        if (upToFailure options.session options.expressions).any failed then 1 else 0) ∧
    (options.expressions = [] →
      ReportAlike (submitEach options.session (answeredLines input))
        (run plainArguments input) (run jsonArguments input) ∧
      (run jsonArguments input).code = 0) := by
  rw [run, plain, run, json]
  constructor
  · intro some
    have evaluations : ∀ event ∈ (upToFailure options.session options.expressions).map
        Event.ofEvaluation, event.reply ≠ .exit := by
      intro event mem
      obtain ⟨evaluation, -, rfl⟩ := List.mem_map.1 mem
      exact nofun
    have alike := reportAlike_reports
      (if (upToFailure options.session options.expressions).any failed then 1 else 0) evaluations
    rw [← exitCode_expressionEvents, ← expressionEvents_eq] at alike ⊢
    simp only [List.isEmpty_eq_false_iff.2 some]
    exact ⟨alike, rfl⟩
  · intro none
    have replies : ∀ event ∈ submitEach options.session (answeredLines input),
        event.reply ≠ .exit :=
      reply_ne_exit_of_mem_submitEach fun line mem => not_leaves_of_mem mem
    have alike := reportAlike_reports 0 replies
    rw [← lineEvents_eq] at alike ⊢
    simp only [none]
    exact ⟨alike, rfl⟩

/-- Three expressions of which the second fails. -/
def divisions : Options :=
  { expressions := ["1/3", "1/0", "2"], json := false, precision := none, angle := none }

theorem run_json_like_plain_of_divisions :
    ReportAlike ((upToFailure divisions.session ["1/3", "1/0", "2"]).map Event.ofEvaluation)
        (run ["-c", "1/3", "1/0", "2"] "") (run ["--json", "-c", "1/3", "1/0", "2"] "") ∧
      ReportAlike (submitEach Options.initial.session (answeredLines "1/3\n\n#var\nexit\n2"))
        (run [] "1/3\n\n#var\nexit\n2") (run ["--json"] "1/3\n\n#var\nexit\n2") := by
  have expressions := @run_json_like_plain ["-c", "1/3", "1/0", "2"]
    ["--json", "-c", "1/3", "1/0", "2"] divisions (by rfl) (by rfl) ""
  have lines := @run_json_like_plain [] ["--json"] .initial (by rfl) (by rfl)
    "1/3\n\n#var\nexit\n2"
  exact ⟨(expressions.1 (by decide)).1, (lines.2 (by rfl)).1⟩

end CommandLine

end Calculator
