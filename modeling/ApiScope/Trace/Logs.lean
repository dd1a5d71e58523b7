import ApiScope.Trace.JsonStream
import ApiScope.Trace.Jsonl
import ApiScope.Trace.Record

/-!
# Logs read back

A log is what one event after the other leaves on a stream.  The readers here are
the inverse of the renderers: `readLog` finds the records of a text log and the
rows of each, `readJsonl` the objects of a JSONL log.
-/

namespace ApiScope

open Bytes Ostream TraceLanguage

namespace TraceRenderer

/-- The events that a renderer does not pass over, as the parser sees them. -/
def accepted (events : List TraceEvent) : List (TraceEvent × ParsedEvent) :=
  events.filterMap fun event =>
    (ParseTraceEvent event event.header.size.toNat).map fun parsed => (event, parsed)

theorem accepted_cons_none {event : TraceEvent}
    (rejected : ParseTraceEvent event event.header.size.toNat = none) (events : List TraceEvent) :
    accepted (event :: events) = accepted events := by
  rw [accepted, List.filterMap_cons, rejected]
  rfl

theorem accepted_cons_some {event : TraceEvent} {parsed : ParsedEvent}
    (parses : ParseTraceEvent event event.header.size.toNat = some parsed)
    (events : List TraceEvent) :
    accepted (event :: events) = (event, parsed) :: accepted events := by
  rw [accepted, List.filterMap_cons, parses]
  rfl

theorem mem_accepted {events : List TraceEvent} {event : TraceEvent} {parsed : ParsedEvent} :
    (event, parsed) ∈ accepted events ↔
      event ∈ events ∧ ParseTraceEvent event event.header.size.toNat = some parsed := by
  simp [accepted, List.mem_filterMap]

/-! ## Text logs -/

/-- What a record says: the hooked function and its rows. -/
structure TextRecord where
  moduleName : List Char
  apiName : List Char
  rows : List Row
  deriving DecidableEq, Repr

def labelCharacter (character : Char) : Bool := character != ' ' && character != ':'

/-- The label behind four blanks, and the value behind the colon. -/
def readRow (line : List Char) : Row :=
  let labelled := line.drop 4
  ⟨labelled.takeWhile labelCharacter, (labelled.dropWhile (· != ':')).drop 2⟩

def opensRecord (line : List Char) : Bool := (text "[*] ").isPrefixOf line

def readRecord : List (List Char) → Option TextRecord
  | [] => none
  | header :: rows =>
      let names := header.drop 4
      some ⟨names.takeWhile (· != '!'),
        ((names.dropWhile (· != '!')).drop 1).takeWhile (· != ' '), rows.map readRow⟩

def readLog (log : List Char) : List TextRecord :=
  (sections opensRecord ((log.splitOn '\n').filter (· ≠ []))).filterMap readRecord

/-! ### One record -/

/-- The lines of a record behind its empty line. -/
def recordLines (fileTimeToSystemTime : FileTimeToSystemTime) (event : TraceEvent)
    (parsed : ParsedEvent) : List (List Char) :=
  let labelWidth := TextLabelWidth parsed.fields event
  headerLine parsed ::
    (eventRows fileTimeToSystemTime event parsed labelWidth).map (Row.line labelWidth)

def textRecord (fileTimeToSystemTime : FileTimeToSystemTime) (event : TraceEvent)
    (parsed : ParsedEvent) : TextRecord where
  moduleName := chars parsed.moduleName
  apiName := chars parsed.apiName
  rows := eventRows fileTimeToSystemTime event parsed (TextLabelWidth parsed.fields event)

theorem takeWhile_over {alphabet : Char → Bool} {front : List Char} (inside : Over alphabet front)
    {stop : Char} (outside : alphabet stop = false) (back : List Char) :
    (front ++ stop :: back).takeWhile alphabet = front := by
  rw [List.takeWhile_append_of_pos inside, List.takeWhile_cons_of_neg (by simp [outside]),
    List.append_nil]

theorem dropWhile_over {alphabet : Char → Bool} {front : List Char} (inside : Over alphabet front)
    {stop : Char} (outside : alphabet stop = false) (back : List Char) :
    (front ++ stop :: back).dropWhile alphabet = stop :: back := by
  rw [List.dropWhile_append_of_pos inside, List.dropWhile_cons_of_neg (by simp [outside])]

theorem labelCharacter_moduleName : ∀ character : UInt8, ModuleNameCharacter character →
    labelCharacter (Char.ofUInt8 character) = true ∧ Char.ofUInt8 character ≠ '!' :=
  forall_byte (by decide +kernel)

theorem over_labelCharacter_name {alphabet : UInt8 → Prop} {name : List UInt8}
    (valid : NameOver alphabet name)
    (narrow : ∀ character, alphabet character → ModuleNameCharacter character) :
    Over labelCharacter (chars name) ∧ Over (· != '!') (chars name) := by
  have each : ∀ character ∈ chars name, labelCharacter character = true ∧ character ≠ '!' := by
    intro character member
    obtain ⟨byte, inside, rfl⟩ := List.mem_map.mp member
    exact labelCharacter_moduleName byte (narrow byte (valid.2.2 byte inside))
  exact ⟨fun character member => (each character member).1,
    fun character member => by simpa using (each character member).2⟩

theorem readRow_line {row : Row} (labelled : Over labelCharacter row.label) (labelWidth : Nat) :
    readRow (row.line labelWidth) = row := by
  have line : (row.line labelWidth).drop 4 =
      row.label ++ (List.replicate (labelWidth - row.label.length) ' ' ++ ':' :: ' ' :: row.value) := by
    simp [Row.line, List.rightpad, text]
  have noColon : Over (· != ':') (row.label ++ List.replicate (labelWidth - row.label.length) ' ') := by
    refine over_append.mpr ⟨fun character member => ?_, fun character member => ?_⟩
    · have both := labelled character member
      simp only [labelCharacter, Bool.and_eq_true] at both
      exact both.2
    · rw [List.eq_of_mem_replicate member]
      decide
  have label : ((row.line labelWidth).drop 4).takeWhile labelCharacter = row.label := by
    rw [line]
    cases labelWidth - row.label.length with
    | zero => exact takeWhile_over labelled (by decide) _
    | succ blanks => exact takeWhile_over labelled (by decide) _
  have value : (((row.line labelWidth).drop 4).dropWhile (· != ':')).drop 2 = row.value := by
    rw [line, ← List.append_assoc, dropWhile_over noColon (by decide)]
    rfl
  rw [readRow, label, value]

theorem over_labelCharacter_rows (fileTimeToSystemTime : FileTimeToSystemTime)
    {event : TraceEvent} {parsed : ParsedEvent} {labelWidth : Nat}
    (names : ∀ field ∈ parsed.fields, Over labelCharacter (chars field.name)) :
    ∀ row ∈ eventRows fileTimeToSystemTime event parsed labelWidth,
      Over labelCharacter row.label := by
  have flag : ∀ flag (name : String), Over labelCharacter (text name) →
      ∀ row ∈ flagRows event flag name, Over labelCharacter row.label := by
    intro flag name named row member
    unfold flagRows at member
    split_ifs at member
    · rw [List.mem_singleton.mp member]
      exact named
    · cases member
  simp only [eventRows, List.forall_mem_append]
  refine ⟨⟨⟨fun row head => ?_, fun row member => ?_⟩, flag _ _ (over_text (by decide))⟩,
    flag _ _ (over_text (by decide))⟩
  · simp only [List.mem_cons, List.not_mem_nil, or_false] at head
    rcases head with rfl | rfl | rfl <;> exact over_text (by decide)
  · obtain ⟨field, inside, among⟩ := List.mem_flatMap.mp member
    have name := names field inside
    unfold fieldRows at among
    dsimp only at among
    split_ifs at among
    · simp only [previewRows, List.mem_cons, List.not_mem_nil, or_false] at among
      rcases among with rfl | rfl | rfl
      · exact name
      · exact over_append.mpr ⟨name, over_text (by decide)⟩
      · exact over_append.mpr ⟨name, over_text (by decide)⟩
    · rw [List.mem_singleton.mp among]
      exact name

section Event

variable (fileTimeToSystemTime : FileTimeToSystemTime) {event : TraceEvent} {parsed : ParsedEvent}

theorem readRecord_recordLines (parses : ParseTraceEvent event event.header.size.toNat = some parsed) :
    readRecord (recordLines fileTimeToSystemTime event parsed) =
      some (textRecord fileTimeToSystemTime event parsed) := by
  obtain ⟨_, encodes⟩ := parseTraceEvent_sound parses
  have moduleName := over_labelCharacter_name encodes.validModuleName fun _ valid => valid
  have apiName := over_labelCharacter_name encodes.validApiName fun _ => .inl
  have labels : ∀ row ∈ eventRows fileTimeToSystemTime event parsed
      (TextLabelWidth parsed.fields event), Over labelCharacter row.label := by
    refine over_labelCharacter_rows fileTimeToSystemTime fun field member => ?_
    exact (over_labelCharacter_name (encodes.valid _ (List.mem_map_of_mem member)).1.1
      fun _ => FieldNameCharacter_moduleName).1
  have names : (headerLine parsed).drop 4 =
      chars parsed.moduleName ++ '!' :: (chars parsed.apiName ++ ' ' :: text "----------") := by
    simp [headerLine, text]
  have noBlank : Over (· != ' ') (chars parsed.apiName) := by
    intro character member
    have both := apiName.1 character member
    simp only [labelCharacter, Bool.and_eq_true] at both
    exact both.1
  rw [recordLines, readRecord, names, takeWhile_over moduleName.2 (by decide),
    dropWhile_over moduleName.2 (by decide), List.drop_one, List.tail_cons,
    takeWhile_over noBlank (by decide), List.map_map, textRecord]
  congr 2
  refine (List.map_congr_left fun row member => ?_).trans (List.map_id _)
  exact readRow_line (labels row member) _

theorem single_recordLines (parses : ParseTraceEvent event event.header.size.toNat = some parsed) :
    ∀ line ∈ recordLines fileTimeToSystemTime event parsed, '\n' ∉ line := by
  obtain ⟨_, encodes⟩ := parseTraceEvent_sound parses
  have header := printable_headerLine
    (clean_name encodes.validModuleName fun _ valid => valid).printable
    (clean_name encodes.validApiName fun _ => .inl).printable
  have rows : ∀ row ∈ eventRows fileTimeToSystemTime event parsed
      (TextLabelWidth parsed.fields event), row.Printable := by
    refine printable_eventRows fileTimeToSystemTime fun field member => ?_
    exact (clean_name (encodes.valid _ (List.mem_map_of_mem member)).1.1
      fun _ => FieldNameCharacter_moduleName).printable
  intro line member newline
  rw [recordLines, List.mem_cons, List.mem_map] at member
  rcases member with rfl | ⟨row, inside, rfl⟩
  · exact absurd (header '\n' newline) (by decide)
  · exact absurd ((rows row inside).line _ '\n' newline) (by decide)

theorem isSection_recordLines :
    IsSection opensRecord (recordLines fileTimeToSystemTime event parsed) := by
  refine ⟨_, _, rfl, ?_, fun line member => ?_⟩
  · simp [opensRecord, headerLine, text]
  · obtain ⟨row, _, rfl⟩ := List.mem_map.mp member
    rfl

theorem recordLines_ne_nil :
    ∀ line ∈ recordLines fileTimeToSystemTime event parsed, line ≠ [] := by
  intro line member empty
  subst empty
  rw [recordLines, List.mem_cons, List.mem_map] at member
  rcases member with header | ⟨row, _, blank⟩
  · simp [headerLine, text] at header
  · simp [Row.line, text] at blank

end Event

/-! ### The whole log -/

theorem flatMap_renderTraceEventText (fileTimeToSystemTime : FileTimeToSystemTime)
    (events : List TraceEvent) :
    events.flatMap (RenderTraceEventText fileTimeToSystemTime) =
      unlines ((accepted events).flatMap fun entry =>
        [] :: recordLines fileTimeToSystemTime entry.1 entry.2) := by
  induction events with
  | nil => rfl
  | cons event events inductionHypothesis =>
      rw [List.flatMap_cons, inductionHypothesis]
      cases parses : ParseTraceEvent event event.header.size.toNat with
      | none =>
          rw [accepted_cons_none parses, RenderTraceEventText, parses]
          rfl
      | some parsed =>
          rw [accepted_cons_some parses, List.flatMap_cons, unlines_append,
            renderTraceEventText_eq fileTimeToSystemTime parses]
          rfl

theorem filter_recordLines (fileTimeToSystemTime : FileTimeToSystemTime)
    (entries : List (TraceEvent × ParsedEvent)) :
    (entries.flatMap fun entry => [] :: recordLines fileTimeToSystemTime entry.1 entry.2).filter
        (· ≠ []) =
      (entries.map fun entry => recordLines fileTimeToSystemTime entry.1 entry.2).flatten := by
  induction entries with
  | nil => rfl
  | cons entry entries inductionHypothesis =>
      have kept : (recordLines fileTimeToSystemTime entry.1 entry.2).filter (· ≠ []) =
          recordLines fileTimeToSystemTime entry.1 entry.2 :=
        List.filter_eq_self.mpr fun line member =>
          decide_eq_true (recordLines_ne_nil fileTimeToSystemTime line member)
      rw [List.flatMap_cons, List.filter_append, inductionHypothesis, List.map_cons,
        List.flatten_cons, List.filter_cons_of_neg (by simp), kept]

/-- A text log falls apart into the records of the accepted events, whatever they hold. -/
theorem readLog_flatMap (fileTimeToSystemTime : FileTimeToSystemTime) (events : List TraceEvent) :
    readLog (events.flatMap (RenderTraceEventText fileTimeToSystemTime)) =
      (accepted events).map fun entry => textRecord fileTimeToSystemTime entry.1 entry.2 := by
  have single : ∀ line ∈ (accepted events).flatMap
      (fun entry => [] :: recordLines fileTimeToSystemTime entry.1 entry.2), '\n' ∉ line := by
    intro line member
    obtain ⟨⟨event, parsed⟩, inside, among⟩ := List.mem_flatMap.mp member
    rcases List.mem_cons.mp among with rfl | among
    · simp
    · exact single_recordLines fileTimeToSystemTime (mem_accepted.mp inside).2 line among
  have shaped : ∀ group ∈ (accepted events).map
      (fun entry => recordLines fileTimeToSystemTime entry.1 entry.2), IsSection opensRecord group := by
    intro group member
    obtain ⟨entry, _, rfl⟩ := List.mem_map.mp member
    exact isSection_recordLines fileTimeToSystemTime
  rw [readLog, flatMap_renderTraceEventText, splitOn_unlines single, List.filter_append,
    filter_recordLines]
  simp only [ne_eq, not_true_eq_false, decide_false, Bool.false_eq_true, not_false_eq_true,
    List.filter_cons_of_neg, List.filter_nil, List.append_nil]
  rw [sections_flatten shaped, List.filterMap_map, ← List.filterMap_eq_map]
  refine List.filterMap_congr fun entry member => ?_
  exact readRecord_recordLines fileTimeToSystemTime (mem_accepted.mp member).2

/-! ## JSONL logs -/

/-- Each line, up to the end of the last, is an object. -/
def readJsonl (log : List Char) : Option (List Json.Value) :=
  let lines := log.splitOn '\n'
  if lines.getLast? = some [] then lines.dropLast.mapM Json.decode else none

def eventObject (fileTimeToSystemTime : FileTimeToSystemTime) (event : TraceEvent)
    (parsed : ParsedEvent) : Json.Value :=
  .object (eventMembers fileTimeToSystemTime event parsed.moduleName parsed.apiName
    (parsed.fields.map (fieldOf event.payload)))

section Event

variable (fileTimeToSystemTime : FileTimeToSystemTime) {event : TraceEvent} {parsed : ParsedEvent}

theorem renderTraceEventJsonl_line
    (parses : ParseTraceEvent event event.header.size.toNat = some parsed) :
    RenderTraceEventJsonl fileTimeToSystemTime event =
      Json.encodeValue (eventObject fileTimeToSystemTime event parsed) ++ ['\n'] :=
  renderTraceEventJsonl_eq fileTimeToSystemTime (parseTraceEvent_sound parses).2

theorem printable_eventObject
    (parses : ParseTraceEvent event event.header.size.toNat = some parsed) :
    Json.Printable (eventObject fileTimeToSystemTime event parsed) :=
  printable_eventMembers fileTimeToSystemTime (parseTraceEvent_sound parses).2

/-- What an object has to say about the event of its line. -/
def ObjectSays (entry : TraceEvent × ParsedEvent) (object : Json.Value) : Prop :=
  ∃ members fieldMembers, object = .object members ∧ Json.DistinctKeys object ∧
    LineSays entry.1 entry.2 members fieldMembers

theorem objectSays_eventObject
    (parses : ParseTraceEvent event event.header.size.toNat = some parsed) :
    ObjectSays (event, parsed) (eventObject fileTimeToSystemTime event parsed) := by
  obtain ⟨_, encodes⟩ := parseTraceEvent_sound parses
  exact ⟨_, _, rfl, distinctKeys_eventMembers fileTimeToSystemTime encodes,
    lineSays_eventMembers fileTimeToSystemTime encodes.valid⟩

end Event

theorem flatMap_renderTraceEventJsonl (fileTimeToSystemTime : FileTimeToSystemTime)
    (events : List TraceEvent) :
    events.flatMap (RenderTraceEventJsonl fileTimeToSystemTime) =
      unlines ((accepted events).map fun entry =>
        Json.encodeValue (eventObject fileTimeToSystemTime entry.1 entry.2)) := by
  induction events with
  | nil => rfl
  | cons event events inductionHypothesis =>
      rw [List.flatMap_cons, inductionHypothesis]
      cases parses : ParseTraceEvent event event.header.size.toNat with
      | none =>
          rw [accepted_cons_none parses, RenderTraceEventJsonl, parses]
          rfl
      | some parsed =>
          rw [accepted_cons_some parses, List.map_cons, unlines_cons,
            renderTraceEventJsonl_line fileTimeToSystemTime parses]

/-- A JSONL log holds one object for each accepted event, in order, and nothing else. -/
theorem readJsonl_flatMap (fileTimeToSystemTime : FileTimeToSystemTime)
    (events : List TraceEvent) :
    readJsonl (events.flatMap (RenderTraceEventJsonl fileTimeToSystemTime)) =
      some ((accepted events).map fun entry =>
        eventObject fileTimeToSystemTime entry.1 entry.2) := by
  have printable : ∀ entry ∈ accepted events,
      Json.Printable (eventObject fileTimeToSystemTime entry.1 entry.2) := fun entry member =>
    printable_eventObject fileTimeToSystemTime (mem_accepted.mp member).2
  have single : ∀ line ∈ (accepted events).map
      (fun entry => Json.encodeValue (eventObject fileTimeToSystemTime entry.1 entry.2)),
      '\n' ∉ line := by
    intro line member newline
    obtain ⟨entry, inside, rfl⟩ := List.mem_map.mp member
    exact absurd (Json.visible_encodeValue _ (printable entry inside) '\n' newline) (by decide)
  have decoded : ∀ entries : List (TraceEvent × ParsedEvent),
      (∀ entry ∈ entries, Json.Printable (eventObject fileTimeToSystemTime entry.1 entry.2)) →
      (entries.map fun entry =>
        Json.encodeValue (eventObject fileTimeToSystemTime entry.1 entry.2)).mapM Json.decode =
      some (entries.map fun entry => eventObject fileTimeToSystemTime entry.1 entry.2) := by
    intro entries each
    induction entries with
    | nil => rfl
    | cons entry entries inductionHypothesis =>
        rw [List.forall_mem_cons] at each
        simp only [List.map_cons, List.mapM_cons, Json.decode_encode _ each.1,
          inductionHypothesis each.2]
        rfl
  rw [readJsonl, flatMap_renderTraceEventJsonl, splitOn_unlines single]
  simp only [List.getLast?_concat, if_true, List.dropLast_concat]
  exact decoded _ printable

end TraceRenderer

end ApiScope
