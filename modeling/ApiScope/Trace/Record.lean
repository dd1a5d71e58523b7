import ApiScope.Trace.Alphabet
import ApiScope.Trace.Stream

/-!
# The record of an event

The text of an accepted event has a shape that nothing in the event can break:
a record is a header line and rows, each with its label in the same column as all
others.  Names are checked by the parser, numbers and bytes are written as
digits, and previews show no control characters.
-/

namespace ApiScope

open Bytes Ostream TraceLanguage

namespace TraceRenderer

/-! ## Rows -/

structure Row where
  label : List Char
  value : List Char
  deriving DecidableEq, Repr

/-- Four blanks, the label filled up to the common width, a colon and the value. -/
def Row.line (labelWidth : Nat) (row : Row) : List Char :=
  text "    " ++ row.label.rightpad labelWidth ' ' ++ text ": " ++ row.value

def headerLine (parsed : ParsedEvent) : List Char :=
  text "[*] " ++ chars parsed.moduleName ++ text "!" ++ chars parsed.apiName ++ text " ----------"

/-- The bytes of a preview in digits and as text, with dots where they were cut off, and
the status of the capture. -/
def previewRows (name : List Char) (bytes : TraceBytesHeader) (preview : List UInt8) : List Row :=
  let dots := fun dots => if bytes.captured < bytes.requested then text dots else []
  [⟨name, HexBytes preview true ++ dots " ..."⟩,
    ⟨name ++ text "_text", chars (PreviewText preview) ++ dots "..."⟩,
    ⟨name ++ text "_status", HexStatus bytes.captureStatus⟩]

def fieldRows (labelWidth : Nat) (event : TraceEvent) (field : TraceFieldView) : List Row :=
  let value := event.payload.drop field.value
  if field.header.type = TraceFieldBytes then
    let bytes := ReadBytesHeader value
    previewRows (chars field.name) bytes
      ((value.drop sizeofTraceBytesHeader).take bytes.captured.toNat)
  else [⟨chars field.name, RenderTextValue labelWidth field value⟩]

def flagRows (event : TraceEvent) (flag : UInt16) (name : String) : List Row :=
  if flagged event flag then [⟨text name, text "true"⟩] else []

/-- The rows behind the header line, in their order. -/
def eventRows (fileTimeToSystemTime : FileTimeToSystemTime) (event : TraceEvent)
    (parsed : ParsedEvent) (labelWidth : Nat) : List Row :=
  [⟨text "timestamp", FormatTimestamp fileTimeToSystemTime event.header.timestamp100ns⟩,
    ⟨text "thread_id", decimal event.header.threadId.toNat⟩,
    ⟨text "sequence", decimal event.header.sequence.toNat⟩] ++
  parsed.fields.flatMap (fieldRows labelWidth event) ++
  flagRows event TraceEventFlagTruncated "truncated" ++
  flagRows event TraceEventFlagFieldError "field_error"

/-! ## The renderer writes them -/

def rowLines (labelWidth : Nat) (rows : List Row) : List Char :=
  unlines (rows.map (Row.line labelWidth))

theorem rowLines_append (labelWidth : Nat) (first second : List Row) :
    rowLines labelWidth (first ++ second) =
      rowLines labelWidth first ++ rowLines labelWidth second := by
  rw [rowLines, List.map_append, unlines_append]
  rfl

theorem rowLines_cons (labelWidth : Nat) (label value : List Char) (rows : List Row) :
    rowLines labelWidth (⟨label, value⟩ :: rows) =
      RenderTextLabel label labelWidth ++ value ++ text "\n" ++ rowLines labelWidth rows := by
  rw [rowLines, List.map_cons, unlines_cons]
  rfl

theorem rowLines_fieldRows (labelWidth : Nat) (event : TraceEvent) (field : TraceFieldView) :
    rowLines labelWidth (fieldRows labelWidth event field) =
      RenderTextLabel (chars field.name) labelWidth ++
        RenderTextValue labelWidth field (event.payload.drop field.value) ++ text "\n" := by
  unfold fieldRows
  dsimp only
  split_ifs with bytes
  · have shown : ∀ value, RenderTextValue labelWidth field value =
        RenderTextPreview labelWidth (chars field.name) (ReadBytesHeader value)
          (HexBytes ((value.drop sizeofTraceBytesHeader).take
            (ReadBytesHeader value).captured.toNat) true)
          (PreviewText ((value.drop sizeofTraceBytesHeader).take
            (ReadBytesHeader value).captured.toNat)) := by
      intro value
      simp (disch := decide) only [RenderTextValue, bytes, if_neg, if_pos]
    rw [shown, previewRows, rowLines_cons, rowLines_cons, rowLines_cons]
    simp only [RenderTextPreview, List.append_assoc]
    rfl
  · rw [rowLines_cons]
    exact List.append_nil _

theorem rowLines_flatMap (labelWidth : Nat) (event : TraceEvent) (fields : List TraceFieldView) :
    rowLines labelWidth (fields.flatMap (fieldRows labelWidth event)) =
      RenderTextFields event labelWidth fields := by
  induction fields with
  | nil => rfl
  | cons field fields inductionHypothesis =>
      rw [List.flatMap_cons, rowLines_append, rowLines_fieldRows, inductionHypothesis,
        RenderTextFields, RenderTextFields, List.flatMap_cons]

theorem rowLines_flagRows (labelWidth : Nat) (event : TraceEvent) (flag : UInt16)
    (name : String) :
    rowLines labelWidth (flagRows event flag name) = RenderTextFlag event labelWidth flag name := by
  unfold flagRows RenderTextFlag
  split_ifs
  · rw [rowLines_cons, List.append_assoc, List.append_assoc]
    rfl
  · rfl

theorem renderTraceEventText_eq (fileTimeToSystemTime : FileTimeToSystemTime)
    {event : TraceEvent} {parsed : ParsedEvent}
    (accepted : ParseTraceEvent event event.header.size.toNat = some parsed) :
    let labelWidth := TextLabelWidth parsed.fields event
    RenderTraceEventText fileTimeToSystemTime event =
      unlines ([] :: headerLine parsed ::
        (eventRows fileTimeToSystemTime event parsed labelWidth).map (Row.line labelWidth)) := by
  intro labelWidth
  have rows : unlines
      ((eventRows fileTimeToSystemTime event parsed labelWidth).map (Row.line labelWidth)) =
      rowLines labelWidth (eventRows fileTimeToSystemTime event parsed labelWidth) := rfl
  rw [RenderTraceEventText, accepted, unlines_cons, unlines_cons, rows, eventRows,
    rowLines_append, rowLines_append, rowLines_append, rowLines_flatMap, rowLines_flagRows,
    rowLines_flagRows, rowLines_cons, rowLines_cons, rowLines_cons]
  simp only [RenderTextHeader, headerLine, List.append_assoc]
  rfl

/-! ## One column -/

section Width

variable {Item : Type*} {step : Nat → Item → Nat}

theorem le_foldl (grows : ∀ width item, width ≤ step width item) (items : List Item)
    (width : Nat) : width ≤ items.foldl step width := by
  induction items generalizing width with
  | nil => exact le_rfl
  | cons item items inductionHypothesis =>
      exact (grows width item).trans (inductionHypothesis (step width item))

/-- A width that grows over a list covers what each of its steps covers. -/
theorem covered_foldl (grows : ∀ width item, width ≤ step width item) {items : List Item}
    {item : Item} (member : item ∈ items) {need : Nat} (covers : ∀ width, need ≤ step width item)
    (width : Nat) : need ≤ items.foldl step width := by
  obtain ⟨front, back, rfl⟩ := List.append_of_mem member
  rw [List.foldl_append, List.foldl_cons]
  exact (covers _).trans (le_foldl grows back _)

end Width

/-- How one field widens the labels. -/
def widen (width : Nat) (field : TraceFieldView) : Nat :=
  let width := max width field.name.length
  if field.header.type = TraceFieldBytes then
    max (max width (field.name.length + (text "_text").length))
      (field.name.length + (text "_status").length)
  else width

/-- How a flag that is set widens the labels. -/
def widenFlag (event : TraceEvent) (flag : UInt16) (name : String) (width : Nat) : Nat :=
  if flagged event flag then max width (text name).length else width

theorem textLabelWidth_eq (fields : List TraceFieldView) (event : TraceEvent) :
    TextLabelWidth fields event =
      widenFlag event TraceEventFlagFieldError "field_error"
        (widenFlag event TraceEventFlagTruncated "truncated"
          (fields.foldl widen (text "timestamp").length)) := rfl

theorem widen_grows (width : Nat) (field : TraceFieldView) : width ≤ widen width field := by
  unfold widen
  dsimp only
  split_ifs <;> omega

theorem widenFlag_grows (event : TraceEvent) (flag : UInt16) (name : String) (width : Nat) :
    width ≤ widenFlag event flag name width := by
  unfold widenFlag
  split_ifs
  · exact le_max_left _ _
  · exact le_rfl

theorem widen_covers {labelWidth : Nat} {event : TraceEvent} {field : TraceFieldView} {row : Row}
    (member : row ∈ fieldRows labelWidth event field) (width : Nat) :
    row.label.length ≤ widen width field := by
  unfold fieldRows at member
  unfold widen
  dsimp only at member ⊢
  split_ifs at member ⊢ with bytes
  · simp only [previewRows, List.mem_cons, List.not_mem_nil, or_false] at member
    rcases member with rfl | rfl | rfl
    · simp [chars]
    · simp [chars]
    · simp [chars]
  · rw [List.mem_singleton.mp member]
    simp [chars]

theorem widenFlag_covers {event : TraceEvent} {flag : UInt16} {name : String} {row : Row}
    (member : row ∈ flagRows event flag name) (width : Nat) :
    row.label.length ≤ widenFlag event flag name width := by
  unfold flagRows at member
  unfold widenFlag
  split_ifs at member ⊢
  · rw [List.mem_singleton.mp member]
    exact le_max_right _ _
  · cases member

/-- The pass that computes the width has foreseen every label that is printed. -/
theorem length_label_le (fileTimeToSystemTime : FileTimeToSystemTime) {event : TraceEvent}
    {parsed : ParsedEvent} {labelWidth : Nat} {row : Row}
    (member : row ∈ eventRows fileTimeToSystemTime event parsed labelWidth) :
    row.label.length ≤ TextLabelWidth parsed.fields event := by
  rw [textLabelWidth_eq]
  have grown := fun width => widenFlag_grows event TraceEventFlagFieldError "field_error" width
  have truncatedGrown := fun width =>
    widenFlag_grows event TraceEventFlagTruncated "truncated" width
  have folded : parsed.fields.foldl widen (text "timestamp").length ≤ _ :=
    (truncatedGrown _).trans (grown _)
  rw [eventRows, List.mem_append, List.mem_append, List.mem_append] at member
  rcases member with ((head | field) | truncated) | fieldError
  · have labels : ∀ label ∈ ["timestamp", "thread_id", "sequence"],
        (text label).length ≤ (text "timestamp").length := by decide
    have short : row.label.length ≤ (text "timestamp").length := by
      simp only [List.mem_cons, List.not_mem_nil, or_false] at head
      rcases head with rfl | rfl | rfl <;> exact labels _ (by simp)
    exact (short.trans (le_foldl widen_grows _ _)).trans folded
  · obtain ⟨view, inside, among⟩ := List.mem_flatMap.mp field
    exact (covered_foldl widen_grows inside (widen_covers among) _).trans folded
  · exact (widenFlag_covers truncated _).trans (grown _)
  · exact widenFlag_covers fieldError _

/-! ## Printable rows -/

theorem over_rightpad {alphabet : Char → Bool} {width : Nat} {fill : Char} {field : List Char}
    (inside : Over alphabet field) (fillInside : alphabet fill = true) :
    Over alphabet (field.rightpad width fill) := by
  refine over_append.mpr ⟨inside, fun character padding => ?_⟩
  rw [List.eq_of_mem_replicate padding]
  exact fillInside

def Row.Printable (row : Row) : Prop := Over printable row.label ∧ Over printable row.value

theorem Row.Printable.line {row : Row} (visible : row.Printable) (labelWidth : Nat) :
    Over TraceRenderer.printable (row.line labelWidth) := by
  simp only [Row.line, over_append]
  exact ⟨⟨⟨over_text (by decide), over_rightpad visible.1 (by decide)⟩, over_text (by decide)⟩,
    visible.2⟩

/-- Whatever the bytes of a value, its text is printable. -/
theorem printable_renderTextValue {labelWidth : Nat} {field : TraceFieldView}
    {value : List UInt8} (ordinary : field.header.type ≠ TraceFieldBytes) :
    Over printable (RenderTextValue labelWidth field value) := by
  unfold RenderTextValue
  dsimp only
  rw [if_neg ordinary]
  refine over_ite ?_ (over_ite ?_ (over_ite ?_ (over_ite ?_ (over_ite ?_ (over_ite ?_
    (over_ite ?_ ?_))))))
  · exact over_append.mpr ⟨over_text (by decide), over_setw (clean_upperHex _).printable (by decide)⟩
  · exact (clean_decimal _).printable
  · exact (clean_decimal _).printable
  · exact (clean_signedDecimal _).printable
  · exact (clean_signedDecimal _).printable
  · exact over_ite (over_text (by decide)) (over_text (by decide))
  · exact (clean_hexStatus _).printable
  · simp only [over_append]
    exact ⟨⟨⟨over_text (by decide), (clean_decimal _).printable⟩, over_text (by decide)⟩,
      (clean_hexBytes _ _).printable⟩

theorem printable_fieldRows {labelWidth : Nat} {event : TraceEvent} {field : TraceFieldView}
    (name : Over printable (chars field.name)) :
    ∀ row ∈ fieldRows labelWidth event field, row.Printable := by
  intro row member
  unfold fieldRows at member
  dsimp only at member
  split_ifs at member with bytes
  · have dots : ∀ (cut : Prop) [Decidable cut], Over printable (if cut then text " ..." else []) ∧
        Over printable (if cut then text "..." else []) := fun cut _ =>
      ⟨over_ite (over_text (by decide)) over_nil, over_ite (over_text (by decide)) over_nil⟩
    simp only [previewRows, List.mem_cons, List.not_mem_nil, or_false] at member
    rcases member with rfl | rfl | rfl
    · exact ⟨name, over_append.mpr ⟨(clean_hexBytes _ _).printable, (dots _).1⟩⟩
    · exact ⟨over_append.mpr ⟨name, over_text (by decide)⟩,
        over_append.mpr ⟨printable_previewText _, (dots _).2⟩⟩
    · exact ⟨over_append.mpr ⟨name, over_text (by decide)⟩, (clean_hexStatus _).printable⟩
  · rw [List.mem_singleton.mp member]
    exact ⟨name, printable_renderTextValue bytes⟩

theorem printable_flagRows {event : TraceEvent} {flag : UInt16} {name : String}
    (label : Over printable (text name)) : ∀ row ∈ flagRows event flag name, row.Printable := by
  intro row member
  unfold flagRows at member
  split_ifs at member
  · rw [List.mem_singleton.mp member]
    exact ⟨label, over_text (by decide)⟩
  · cases member

theorem printable_eventRows (fileTimeToSystemTime : FileTimeToSystemTime) {event : TraceEvent}
    {parsed : ParsedEvent} {labelWidth : Nat}
    (names : ∀ field ∈ parsed.fields, Over printable (chars field.name)) :
    ∀ row ∈ eventRows fileTimeToSystemTime event parsed labelWidth, row.Printable := by
  simp only [eventRows, List.forall_mem_append]
  refine ⟨⟨⟨fun row head => ?_, fun row member => ?_⟩, ?_⟩, ?_⟩
  · simp only [List.mem_cons, List.not_mem_nil, or_false] at head
    rcases head with rfl | rfl | rfl
    · exact ⟨over_text (by decide), (clean_formatTimestamp _ _).printable⟩
    · exact ⟨over_text (by decide), (clean_decimal _).printable⟩
    · exact ⟨over_text (by decide), (clean_decimal _).printable⟩
  · obtain ⟨field, inside, among⟩ := List.mem_flatMap.mp member
    exact printable_fieldRows (names field inside) row among
  · exact printable_flagRows (over_text (by decide))
  · exact printable_flagRows (over_text (by decide))

theorem printable_headerLine {parsed : ParsedEvent}
    (moduleName : Over printable (chars parsed.moduleName))
    (apiName : Over printable (chars parsed.apiName)) : Over printable (headerLine parsed) := by
  simp only [headerLine, over_append]
  exact ⟨⟨⟨⟨over_text (by decide), moduleName⟩, over_text (by decide)⟩, apiName⟩,
    over_text (by decide)⟩

/-! ## The record -/

/-- An empty line, the header line and the rows, and nothing else. -/
structure Record (labelWidth : Nat) (header : List Char) (rows : List Row)
    (output : List Char) : Prop where
  characters : ∀ character ∈ output, printable character = true ∨ character = '\n'
  lines : output.splitOn '\n' = [] :: header :: rows.map (Row.line labelWidth) ++ [[]]
  aligned : ∀ row ∈ rows, ∃ blanks, row.label.length + blanks = labelWidth ∧
    row.line labelWidth =
      text "    " ++ row.label ++ List.replicate blanks ' ' ++ text ": " ++ row.value
  unforged : ∀ index line, (output.splitOn '\n')[index]? = some line →
    text "[*]" <+: line → index = 1

theorem line_aligned {row : Row} {labelWidth : Nat} (short : row.label.length ≤ labelWidth) :
    ∃ blanks, row.label.length + blanks = labelWidth ∧
      row.line labelWidth =
        text "    " ++ row.label ++ List.replicate blanks ' ' ++ text ": " ++ row.value := by
  refine ⟨labelWidth - row.label.length, Nat.add_sub_of_le short, ?_⟩
  rw [Row.line, List.rightpad, ← List.append_assoc]

/-- No row starts like a header. -/
theorem line_not_header (row : Row) (labelWidth : Nat) :
    ¬text "[*]" <+: row.line labelWidth := by
  intro start
  have first := (List.cons_prefix_cons.mp start).1
  exact absurd first (by decide)

theorem record_unlines {labelWidth : Nat} {header : List Char} {rows : List Row}
    (visibleHeader : Over printable header) (visible : ∀ row ∈ rows, row.Printable)
    (short : ∀ row ∈ rows, row.label.length ≤ labelWidth) :
    Record labelWidth header rows
      (unlines ([] :: header :: rows.map (Row.line labelWidth))) := by
  have each : ∀ line ∈ [] :: header :: rows.map (Row.line labelWidth), Over printable line := by
    simp only [List.forall_mem_cons, List.forall_mem_map]
    exact ⟨over_nil, visibleHeader, fun row member => (visible row member).line labelWidth⟩
  have split := splitOn_unlines fun line member newline =>
    absurd (each line member '\n' newline) (by decide)
  refine ⟨fun character member => ?_, split, fun row member => line_aligned (short row member),
    fun index line found start => ?_⟩
  · obtain ⟨line, inside, among⟩ := List.mem_flatMap.mp member
    rcases List.mem_append.mp among with shown | ending
    · exact .inl (each line inside character shown)
    · exact .inr (List.mem_singleton.mp ending)
  · rw [split] at found
    have notEmpty : ¬text "[*]" <+: [] := fun start => by
      cases List.prefix_nil.mp start
    match index, found with
    | 0, found =>
        cases found
        exact absurd start notEmpty
    | 1, _ => rfl
    | index + 2, found =>
        have later : (rows.map (Row.line labelWidth) ++ [[]])[index]? = some line := found
        rcases List.mem_append.mp (List.mem_of_getElem? later) with inRows | last
        · obtain ⟨row, _, rfl⟩ := List.mem_map.mp inRows
          exact absurd start (line_not_header row labelWidth)
        · rw [List.mem_singleton.mp last] at start
          exact absurd start notEmpty

/-- Whatever the traced process put into an accepted event, and whatever was written to the
stream before, the stream gains one record of it. -/
theorem text_unforgeable (fileTimeToSystemTime : FileTimeToSystemTime) (event : TraceEvent)
    (bytesReceived : Nat) (parsed : ParsedEvent) (output : Ostream)
    (accepted : ParseTraceEvent event bytesReceived = some parsed)
    (used : SessionStream fileTimeToSystemTime output) :
    let labelWidth := TextLabelWidth parsed.fields event
    ∃ record, ((RenderTraceEventText.streamed fileTimeToSystemTime event).run output).2.written =
        output.written ++ record ∧
      Record labelWidth (headerLine parsed)
        (eventRows fileTimeToSystemTime event parsed labelWidth) record := by
  intro labelWidth
  obtain ⟨received, encodes⟩ := parseTraceEvent_sound accepted
  rw [← received] at accepted
  have names : ∀ field ∈ parsed.fields, Over printable (chars field.name) := by
    intro field member
    have valid := encodes.valid _ (List.mem_map_of_mem member)
    exact (clean_name valid.1.1 fun _ => FieldNameCharacter_moduleName).printable
  have header := printable_headerLine
    (clean_name encodes.validModuleName fun _ valid => valid).printable
    (clean_name encodes.validApiName fun _ => .inl).printable
  refine ⟨RenderTraceEventText fileTimeToSystemTime event,
    (writes_renderTraceEventText fileTimeToSystemTime event output used.settled).1, ?_⟩
  rw [renderTraceEventText_eq fileTimeToSystemTime accepted]
  exact record_unlines header (printable_eventRows fileTimeToSystemTime names)
    fun row member => length_label_le fileTimeToSystemTime member

/-- A preview that was cut off and holds the start of another record, and a pointer, whose
digits leave their formatting on the stream. -/
def hostileEvent : TraceEvent where
  header := ⟨TRACE_EVENT_MAGIC, TRACE_EVENT_VERSION, 72,
    TraceEventFlagTruncated ||| TraceEventFlagFieldError, 2, 9, 0, 4, 2, 3, (0, 0)⟩
  payload := (contents (['n', 't'].map ascii) (['N', 't', 'X'].map ascii)
    [⟨TraceFieldPointer, [ascii 'p'], [239, 205, 0, 0, 0, 0, 0, 0]⟩,
      ⟨TraceFieldBytes, [ascii 'b'],
        [0, 16, 0, 0, 5, 0, 0, 0, 0, 0, 0, 0, 10, 91, 42, 93, 32]⟩]).takeD
    (TRACE_MAX_EVENT_BYTES - sizeofTraceEventHeader) 0
  payload_length := List.takeD_length _ _ _

theorem text_unforgeable_hostileEvent :
    let parsed : ParsedEvent := ⟨['n', 't'].map ascii, ['N', 't', 'X'].map ascii,
      [⟨⟨TraceFieldPointer, 1, 8⟩, [ascii 'p'], 10⟩,
        ⟨⟨TraceFieldBytes, 1, 17⟩, [ascii 'b'], 23⟩]⟩
    let render := RenderTraceEventText.streamed (fun _ => none) hostileEvent
    let labelWidth := TextLabelWidth parsed.fields hostileEvent
    ∃ record, (render.run (render.run {}).2).2.written = (render.run {}).2.written ++ record ∧
      Record labelWidth (headerLine parsed)
        (eventRows (fun _ => none) hostileEvent parsed labelWidth) record :=
  text_unforgeable (fun _ => none) hostileEvent 72 _ _ (by decide +kernel) (.rendered _ .opened)

end TraceRenderer

end ApiScope
