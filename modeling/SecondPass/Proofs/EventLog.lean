import SecondPass.Proofs.Faults

/-!
# The event log

A run tells of its steps as events, from several places and under several conditions. A reader of
the log sees five things in it: the words stored, the problems reported, the lines encoded, the
words refused, and the words dropped in silence. `LogView` holds them, and the view of a log in two
parts is the views of the parts, one behind the other. So the view of a run is put together from
what one word, one line and one entry add to it.
-/

namespace SecondPass

/-! ## Views of a log -/

/-- What a reader sees in a log, kind by kind. -/
structure LogView where
  /-- The words stored, with their addresses. -/
  words : List (Nat × Word) := []
  reports : List Diagnostic := []
  /-- The numbers and texts of the lines encoded. -/
  encodings : List (Nat × String) := []
  /-- The refusals of words of code. -/
  refusals : List ImageFull := []
  /-- The numbers of words dropped in silence. -/
  truncations : List Nat := []
  deriving DecidableEq, Repr

namespace Event

/-- The word that an event stores, with its address. -/
def word? : Event → Option (Nat × Word)
  | emitted address word => some (address, word)
  | _ => none

/-- The problem that an event reports. -/
def report? : Event → Option Diagnostic
  | reported diagnostic => some diagnostic
  | _ => none

/-- The number and the text of the line whose words an event announces. -/
def encoding? : Event → Option (Nat × String)
  | encoding line text => some (line, text)
  | _ => none

/-- The refusal that an event tells of. -/
def refusal? : Event → Option ImageFull
  | wordDropped refusal => some refusal
  | _ => none

/-- The number of words whose silent loss an event tells of. -/
def truncation? : Event → Option Nat
  | truncated dropped => some dropped
  | _ => none

end Event

/-- The view of a log. -/
def viewOf (events : List Event) : LogView where
  words := events.filterMap Event.word?
  reports := events.filterMap Event.report?
  encodings := events.filterMap Event.encoding?
  refusals := events.filterMap Event.refusal?
  truncations := events.filterMap Event.truncation?

namespace LogView

/-- The view of one log behind another. -/
def append (a b : LogView) : LogView where
  words := a.words ++ b.words
  reports := a.reports ++ b.reports
  encodings := a.encodings ++ b.encodings
  refusals := a.refusals ++ b.refusals
  truncations := a.truncations ++ b.truncations

instance : Append LogView := ⟨append⟩

theorem append_def (a b : LogView) :
    a ++ b = ⟨a.words ++ b.words, a.reports ++ b.reports, a.encodings ++ b.encodings,
      a.refusals ++ b.refusals, a.truncations ++ b.truncations⟩ := rfl

end LogView

@[simp] theorem viewOf_nil : viewOf [] = {} := rfl

theorem viewOf_append (first second : List Event) :
    viewOf (first ++ second) = viewOf first ++ viewOf second := by
  simp only [viewOf, List.filterMap_append]
  rfl

theorem viewOf_cons (event : Event) (rest : List Event) :
    viewOf (event :: rest) = viewOf [event] ++ viewOf rest :=
  viewOf_append [event] rest

theorem viewOf_map_reported (diagnostics : List Diagnostic) :
    viewOf (diagnostics.map Event.reported) = { reports := diagnostics } := by
  induction diagnostics with
  | nil => rfl
  | cons diagnostic rest ih =>
    rw [List.map_cons, viewOf_cons, ih]
    rfl

/-- Reports are the only events of the level of errors. -/
theorem filter_level_error (events : List Event) :
    (events.filter fun event => event.level == .error) =
      (viewOf events).reports.map Event.reported := by
  induction events with
  | nil => rfl
  | cons event rest ih =>
    rw [List.filter_cons, ih, viewOf_cons, LogView.append_def, List.map_append]
    cases event <;> rfl

namespace Logged

@[simp] theorem events_pure {α : Type} (a : α) : (pure a : Logged α).events = [] := rfl

@[simp] theorem events_bind {α β : Type} (x : Logged α) (f : α → Logged β) :
    (x >>= f).events = x.events ++ (f x.value).events := rfl

@[simp] theorem events_map {α β : Type} (f : α → β) (x : Logged α) :
    (f <$> x).events = x.events := congrArg Journal.events (journal_map f x)

@[simp] theorem events_note (event : Event) : (note event).events = [event] := rfl

@[simp] theorem events_report (line : Option Nat) (problem : Problem) :
    (report line problem).events = [.reported ⟨line, problem⟩] := rfl

end Logged

/-! ## Words -/

namespace Image

/-- The words of a row that the image stores, with their addresses. -/
def storedOf (image : Image) (words : List Word) : List (Nat × Word) :=
  (words.take image.room).mapIdx fun i word => (image.nextAddress + i, word)

/-- The refusals that a row of words meets. -/
def refusalsOf (image : Image) (words : List Word) : List ImageFull :=
  match image.overflow with
  | .reject => List.replicate (words.length - image.room) ⟨image.capacity⟩
  | .truncate => []

/-- What is stored comes behind what the image holds. -/
theorem loaded_offer (image : Image) (words : List Word) :
    (image.offer words).loaded = image.loaded ++ image.storedOf words := by
  -- the places of the new words count from behind the old ones
  have haddress : (fun (i : Nat) (word : Word) =>
        (image.firstAddress + (i + image.words.toList.length), word)) =
      fun i word => (image.nextAddress + i, word) := by
    funext i word
    rw [Array.length_toList, nextAddress, size, Nat.add_comm i, Nat.add_assoc]
  rw [loaded, toList_words_offer, List.mapIdx_append, firstAddress_offer, haddress]
  rfl

theorem storedOf_append (image : Image) (first second : List Word) :
    image.storedOf (first ++ second) =
      image.storedOf first ++ (image.offer first).storedOf second := by
  have h := loaded_offer image (first ++ second)
  rw [offer_append, loaded_offer, loaded_offer, List.append_assoc] at h
  exact (List.append_cancel_left h).symm

theorem refusalsOf_append (image : Image) (first second : List Word) :
    image.refusalsOf (first ++ second) =
      image.refusalsOf first ++ (image.offer first).refusalsOf second := by
  have hoverflow : (image.offer first).overflow = image.overflow := rfl
  have hcapacity : (image.offer first).capacity = image.capacity := rfl
  rw [refusalsOf, refusalsOf, refusalsOf, hoverflow, hcapacity, room_offer]
  cases image.overflow with
  | truncate => rfl
  | reject =>
    -- the second row meets the room that the first one has left
    have hlength : (first ++ second).length - image.room =
        (first.length - image.room) + (second.length - (image.room - first.length)) := by
      rw [List.length_append]
      omega
    show List.replicate ((first ++ second).length - image.room) _ =
      List.replicate (first.length - image.room) _ ++
        List.replicate (second.length - (image.room - first.length)) _
    rw [hlength, List.replicate_append_replicate]

/-- The first words stored are those of the first row, whether or not all of them are. -/
theorem take_storedOf_append (image : Image) (first second : List Word) :
    (image.storedOf (first ++ second)).take first.length = image.storedOf first := by
  have hfirst : (image.storedOf first).length = min image.room first.length := by
    rw [storedOf, List.length_mapIdx, List.length_take]
  rw [storedOf_append]
  rcases Nat.le_total first.length image.room with hfits | hcut
  · rw [List.take_left' (by rw [hfirst, Nat.min_eq_right hfits])]
  · -- the first row fills the image, so nothing of the second is stored
    have hsecond : (image.offer first).storedOf second = [] := by
      rw [storedOf, room_offer, Nat.sub_eq_zero_of_le hcut, List.take_zero]
      rfl
    rw [hsecond, List.append_nil]
    apply List.take_of_length_le
    omega

@[simp] theorem storedOf_nil (image : Image) : image.storedOf [] = [] := by
  rw [storedOf, List.take_nil]
  rfl

@[simp] theorem refusalsOf_nil (image : Image) : image.refusalsOf [] = [] := by
  rw [refusalsOf, List.length_nil, Nat.zero_sub]
  cases image.overflow <;> rfl

theorem storedOf_cons (image : Image) (word : Word) (rest : List Word) :
    image.storedOf (word :: rest) =
      image.storedOf [word] ++ (image.offer [word]).storedOf rest :=
  storedOf_append image [word] rest

theorem refusalsOf_cons (image : Image) (word : Word) (rest : List Word) :
    image.refusalsOf (word :: rest) =
      image.refusalsOf [word] ++ (image.offer [word]).refusalsOf rest :=
  refusalsOf_append image [word] rest

theorem viewOf_push (image : Image) (word : Word) :
    viewOf (image.push word).events = { words := image.storedOf [word] } := by
  rcases Nat.lt_or_ge image.size image.capacity with hroom | hfull
  · have hnot : image.isFull = false := by simp [isFull, hroom]
    have htake : [word].take image.room = [word] := by
      apply List.take_of_length_le
      simp only [List.length_singleton, room]
      omega
    rw [push, hnot, storedOf, htake]
    rfl
  · have htake : [word].take image.room = [] := by
      rw [show image.room = 0 from Nat.sub_eq_zero_of_le hfull, List.take_zero]
    rw [push_of_isFull (isFull_iff.2 hfull), storedOf, htake]
    rfl

/-- A word of code is stored, refused or passed over. -/
theorem viewOf_emit (image : Image) (word : Word) :
    viewOf (image.emit word).events =
      { words := image.storedOf [word], refusals := image.refusalsOf [word] } := by
  rcases Nat.lt_or_ge image.size image.capacity with hroom | hfull
  · have hnot : image.isFull = false := by simp [isFull, hroom]
    have hnone : image.refusalsOf [word] = [] := by
      have hzero : [word].length - image.room = 0 := by
        simp only [List.length_singleton, room]
        omega
      rw [refusalsOf, hzero]
      cases image.overflow <;> rfl
    have hemit : image.emit word = image.push word := by simp [emit, Image.refusal?, hnot]
    rw [hemit, viewOf_push, hnone]
  · have hone : [word].length - image.room = 1 := by
      rw [show image.room = 0 from Nat.sub_eq_zero_of_le hfull]
      rfl
    have hisFull := isFull_iff.2 hfull
    rw [refusalsOf, hone]
    cases hoverflow : image.overflow with
    | truncate =>
      have hemit : image.emit word = image.push word := by
        simp [emit, Image.refusal?, hoverflow]
      rw [hemit, viewOf_push]
    | reject =>
      have hemit : (image.emit word).events =
          .wordDropped ⟨image.capacity⟩ :: (image.push word).events := by
        simp [emit, Image.refusal?, hisFull, hoverflow]
      rw [hemit, viewOf_cons, viewOf_push]
      rfl

theorem viewOf_emitAll (image : Image) (words : List Word) :
    viewOf (image.emitAll words).events =
      { words := image.storedOf words, refusals := image.refusalsOf words } := by
  induction words generalizing image with
  | nil =>
    rw [storedOf_nil, refusalsOf_nil]
    rfl
  | cons word rest ih =>
    rw [emitAll, Logged.events_bind, viewOf_append, viewOf_emit, ih, value_emit, value_push,
      storedOf_cons image word rest, refusalsOf_cons image word rest]
    rfl

theorem viewOf_pushData (image : Image) (data : List Int32) :
    viewOf (image.pushData data).events = { words := image.storedOf (data.map Word.data) } := by
  induction data generalizing image with
  | nil =>
    rw [List.map_nil, storedOf_nil]
    rfl
  | cons value rest ih =>
    rw [pushData, Logged.events_bind, viewOf_append, viewOf_push, ih, value_push, List.map_cons,
      storedOf_cons image (Word.data value) (rest.map Word.data)]
    rfl

/-- Words of code in two rows go one row after the other. -/
theorem emitAll_append (image : Image) (first second : List Word) :
    image.emitAll (first ++ second) =
      image.emitAll first >>= fun image => image.emitAll second := by
  induction first generalizing image with
  | nil => rw [List.nil_append, emitAll, pure_bind]
  | cons word rest ih =>
    rw [List.cons_append, emitAll, emitAll, bind_assoc]
    congr 1
    funext image
    exact ih image

end Image

/-! ## Lines -/

theorem LabelRef.events_resolve (label : LabelRef) (build : LabelRef → Operand)
    (symbols : SymbolTable .final) (config : Config) (line : Nat) :
    (label.resolve build symbols config line).events =
      (label.resolve build symbols config line).diagnostics.map Event.reported := by
  unfold LabelRef.resolve reportMissing
  cases symbols.address? label.name with
  | some address => rfl
  | none => cases isLegalLabel label.name config <;> rfl

/-- Resolving an operand reports and does nothing else worth telling. -/
theorem Operand.events_resolve (operand : Operand) (symbols : SymbolTable .final)
    (config : Config) (line : Nat) :
    (operand.resolve symbols config line).events =
      (operand.complaints symbols.address? config line).map Event.reported := by
  rw [← Operand.diagnostics_resolve]
  cases operand with
  | absent => rfl
  | immediate value => rfl
  | direct label => exact label.events_resolve _ symbols config line
  | indexed label index => exact label.events_resolve _ symbols config line
  | register number =>
    by_cases h : number < config.usableRegisters
    · simp [resolve, h]
    · simp [resolve, h]

theorem Slot.events_emit (lookup : String → Option Address) (slot : Slot) (position : Position)
    (image : Image) :
    (Slot.emit { slot with operand := slot.operand.settle lookup } position image).events =
      (image.emitAll (slot.operand.layout lookup position)).events := by
  unfold Slot.emit
  cases hpresent : slot.operand.isPresent with
  | true =>
    rw [if_pos (by simpa using hpresent), Operand.words_settle]
    simp
  | false =>
    have habsent : slot.operand = .absent := by
      cases hoperand : slot.operand <;> simp_all [Operand.isPresent]
    rw [if_neg (by simp [hpresent]), habsent]
    rfl

/-- The events of both operands are those of their words, whether or not they share one. -/
theorem events_emitOperands (lookup : String → Option Address) (line : Line) (image : Image) :
    (emitOperands { line.source with operand := line.source.operand.settle lookup }
        { line.dest with operand := line.dest.operand.settle lookup } image).events =
      (image.emitAll
        (operandsLayout lookup line.source.operand line.dest.operand)).events := by
  cases hpair : line.isRegisterPair with
  | true =>
    obtain ⟨source, dest, hsource, hdest⟩ := Line.isRegisterPair_iff.1 hpair
    rw [hsource, hdest]
    rfl
  | false =>
    rw [operandsLayout_of_not_isRegisterPair hpair, Image.emitAll_append, Logged.events_bind,
      Image.value_emitAll]
    unfold emitOperands
    split
    · rename_i hsource hdest
      simp only [Operand.register?_settle] at hsource hdest
      simp [Line.isRegisterPair, hsource, hdest] at hpair
    · rw [Logged.events_bind, Logged.events_bind, Slot.events_emit, Slot.value_emit,
        Slot.events_emit, Logged.events_pure, List.append_nil]

namespace Line

/-- The events of an encoded line: its reports, its announcement, its words. -/
theorem events_encode {line : Line} (hline : line.isEncodable = true)
    (symbols : SymbolTable .final) (config : Config) (image : Image) :
    (line.encode symbols config image).events =
      (line.complaints symbols.address? config).map Event.reported ++
        .encoding line.number (Text.trim line.text) ::
          (image.emitAll (line.layout symbols.address?)).events := by
  obtain ⟨opcode, hopcode, hflagged⟩ := isEncodable_iff.1 hline
  rw [encode_eq_encodeAs hopcode hflagged, layout_of_isEncodable hopcode hflagged, complaints,
    if_pos hline]
  simp only [encodeAs, Logged.events_bind, Logged.events_note, Logged.events_pure,
    Operand.events_resolve, Operand.value_resolve, Operand.modeCode_settle, Image.value_emit,
    events_emitOperands, Image.emitAll, List.map_append, List.append_assoc, List.append_nil]
  rfl

/-- What announces the words of a line. -/
def announcement (line : Line) : Nat × String := (line.number, Text.trim line.text)

theorem viewOf_encode (line : Line) (symbols : SymbolTable .final) (config : Config)
    (image : Image) :
    viewOf (line.encode symbols config image).events =
      { words := image.storedOf (line.layout symbols.address?)
        reports := line.complaints symbols.address? config
        encodings := if line.isEncodable then [line.announcement] else []
        refusals := image.refusalsOf (line.layout symbols.address?) } := by
  cases hline : line.isEncodable with
  | true =>
    have hannounced : viewOf [.encoding line.number (Text.trim line.text)] =
        { encodings := [line.announcement] } := rfl
    rw [events_encode hline, viewOf_append, viewOf_map_reported, viewOf_cons, hannounced,
      Image.viewOf_emitAll]
    simp [LogView.append_def]
  | false =>
    rw [encode_of_not_isEncodable hline, layout_of_not_isEncodable hline, complaints,
      if_neg (by simp [hline])]
    simp

end Line

theorem events_encodeLines_cons (symbols : SymbolTable .final) (config : Config) (line : Line)
    (rest : List Line) (image : Image) :
    (encodeLines symbols config (line :: rest) image).events =
      (line.encode symbols config image).events ++
        (encodeLines symbols config rest (image.offer (line.layout symbols.address?))).events := by
  rw [encodeLines, Logged.events_bind, Logged.events_bind, Line.value_encode, Logged.events_pure,
    List.append_nil]

/-- The events of lines in two parts come one part after the other. -/
theorem events_encodeLines_append (symbols : SymbolTable .final) (config : Config)
    (first second : List Line) (image : Image) :
    (encodeLines symbols config (first ++ second) image).events =
      (encodeLines symbols config first image).events ++
        (encodeLines symbols config second
          (image.offer (codeLayout symbols.address? first))).events := by
  induction first generalizing image with
  | nil =>
    rw [List.nil_append, codeLayout, List.flatMap_nil, Image.offer_nil]
    rfl
  | cons line rest ih =>
    rw [List.cons_append, events_encodeLines_cons, events_encodeLines_cons, ih, codeLayout_cons,
      Image.offer_append, List.append_assoc]

/-- The events of lines split at the announcement of one of them: the last events before it are the
reports on the line. -/
theorem exists_events_encodeLines {lines : List Line} {i : Nat} {line : Line}
    (hi : lines[i]? = some line) (hline : line.isEncodable = true)
    (symbols : SymbolTable .final) (config : Config) (image : Image) :
    ∃ after, (encodeLines symbols config lines image).events =
      (encodeLines symbols config (lines.take i) image).events ++
        ((line.complaints symbols.address? config).map Event.reported ++
          .encoding line.number (Text.trim line.text) :: after) := by
  have hsplit : lines.take i ++ line :: lines.drop (i + 1) = lines := by
    obtain ⟨hlt, rfl⟩ := List.getElem?_eq_some_iff.1 hi
    rw [← List.drop_eq_getElem_cons hlt, List.take_append_drop]
  have hevents := events_encodeLines_append symbols config (lines.take i)
    (line :: lines.drop (i + 1)) image
  rw [hsplit, events_encodeLines_cons, Line.events_encode hline, List.append_assoc,
    List.cons_append] at hevents
  exact ⟨_, hevents⟩

theorem viewOf_encodeLines (symbols : SymbolTable .final) (config : Config) (lines : List Line)
    (image : Image) :
    viewOf (encodeLines symbols config lines image).events =
      { words := image.storedOf (codeLayout symbols.address? lines)
        reports := lines.flatMap (Line.complaints symbols.address? config)
        encodings := (lines.filter Line.isEncodable).map Line.announcement
        refusals := image.refusalsOf (codeLayout symbols.address? lines) } := by
  induction lines generalizing image with
  | nil =>
    rw [codeLayout, List.flatMap_nil, Image.storedOf_nil, Image.refusalsOf_nil]
    rfl
  | cons line rest ih =>
    rw [events_encodeLines_cons, viewOf_append, Line.viewOf_encode, ih, codeLayout_cons,
      Image.storedOf_append, Image.refusalsOf_append, List.filter_cons]
    cases line.isEncodable <;> rfl

/-! ## Entries and the end of a run -/

theorem events_reportEntries (symbols : SymbolTable .final) (entries : List Entry) :
    (reportEntries symbols entries).events =
      (entries.filterMap (Entry.complaint? symbols)).map Event.reported := by
  induction entries with
  | nil => rfl
  | cons entry rest ih =>
    rw [List.filterMap_cons, reportEntries, Entry.complaint?]
    cases entry.problem? symbols with
    | none => exact ih
    | some problem => simp [ih]

theorem viewOf_checkEntries (symbols : SymbolTable .final) (entries : List Entry) :
    viewOf (checkEntries symbols entries).events =
      { reports := entries.filterMap (Entry.complaint? symbols) } := by
  have hchecked : ∀ illegal, viewOf [.entriesChecked entries.length illegal] = {} :=
    fun _ => rfl
  simp [checkEntries, events_reportEntries, viewOf_append, viewOf_map_reported, hchecked,
    LogView.append_def]

theorem viewOf_reportOverflow (overflow : OverflowPolicy) (image : Image) :
    viewOf (reportOverflow overflow image).events =
      { reports := (reportOverflow overflow image).diagnostics
        truncations :=
          if overflow = .truncate ∧ 0 < image.dropped then [image.dropped] else [] } := by
  unfold reportOverflow
  by_cases hdropped : image.dropped = 0
  · rw [if_pos hdropped, if_neg (by omega)]
    rfl
  · have hpos : 0 < image.dropped := Nat.pos_of_ne_zero hdropped
    rw [if_neg hdropped]
    cases overflow with
    | truncate => rw [if_pos ⟨rfl, hpos⟩]; rfl
    | reject => rw [if_neg (by simp)]; rfl

/-! ## Whole runs -/

section Program

variable (program : FirstPass) (config : Config)

/-- The refusals that the first `count` words of a program meet, if all of them are code. -/
def Config.refusals (config : Config) (count : Nat) : List ImageFull :=
  match config.overflow with
  | .reject => List.replicate (count - config.usableCapacity) ⟨config.usableCapacity⟩
  | .truncate => []

theorem refusalsOf_new (words : List Word) :
    (Image.new config).refusalsOf words = config.refusals words.length := rfl

/-- The event that ends a run. -/
def completion : Event :=
  .completed (min config.usableCapacity (codeSize program.lines))
    ((assemble program config).value.image.size -
      min config.usableCapacity (codeSize program.lines))
    (assemble program config).value.errorCount

/-- The log of a run is the log of its lines, between what comes before them and what comes
after. -/
theorem exists_events_assemble : ∃ head tail,
    (assemble program config).events =
      head ++ ((encodeLines (program.symbols.relocate program.instructionCount) config
        program.lines (Image.new config)).events ++ (tail ++ [completion program config])) ∧
      viewOf head =
        { reports := program.entries.filterMap
            (Entry.complaint? (program.symbols.relocate program.instructionCount)) } ∧
      viewOf tail =
        { words := ((Image.new config).offer (codeLayout program.lookup program.lines)).storedOf
            program.dataLayout
          reports := (reportOverflow config.overflow
            (assemble program config).value.image).diagnostics
          truncations :=
            if config.overflow = .truncate ∧ 0 < (assemble program config).value.image.dropped
            then [(assemble program config).value.image.dropped] else [] } := by
  have hcode : (encodeLines (program.symbols.relocate program.instructionCount) config
      program.lines (Image.new config)).value.image =
        (Image.new config).offer (codeLayout program.lookup program.lines) := by
    rw [value_encodeLines, address?_relocate]
  have hsize : (encodeLines (program.symbols.relocate program.instructionCount) config
      program.lines (Image.new config)).value.image.size =
        min config.usableCapacity (codeSize program.lines) := by
    rw [hcode, Image.size_offer, length_codeLayout]
    exact Nat.zero_add _
  refine ⟨(program.symbols.finalize program.instructionCount).events ++
      (checkEntries (program.symbols.relocate program.instructionCount) program.entries).events,
    (((Image.new config).offer (codeLayout program.lookup program.lines)).appendData program.data
      program.dataCount).events ++
        (reportOverflow config.overflow (assemble program config).value.image).events, ?_, ?_, ?_⟩
  · rw [completion, ← hsize, ← hcode]
    simp only [assemble, Logged.events_bind, Logged.events_note, Logged.events_pure,
      Logged.value_bind, Logged.value_pure, SymbolTable.value_finalize, List.append_assoc,
      List.append_nil]
  · rw [viewOf_append, viewOf_checkEntries]
    rfl
  · rw [viewOf_append, viewOf_reportOverflow, Image.appendData, Image.viewOf_pushData]
    simp only [LogView.append_def, List.nil_append, List.append_nil]
    rfl

theorem loaded_assemble :
    (assemble program config).value.image.loaded = (Image.new config).storedOf program.layout := by
  rw [image_assemble, Image.loaded_offer]
  rfl

theorem take_loaded_assemble (i : Nat) :
    (assemble program config).value.image.loaded.take (codeSize (program.lines.take i)) =
      (Image.new config).storedOf (codeLayout program.lookup (program.lines.take i)) := by
  -- the layout of the first lines is the start of the whole layout
  have hlayout : program.layout = codeLayout program.lookup (program.lines.take i) ++
      (codeLayout program.lookup (program.lines.drop i) ++ program.dataLayout) := by
    rw [← List.append_assoc, codeLayout, codeLayout, ← List.flatMap_append, List.take_append_drop]
    rfl
  rw [loaded_assemble, hlayout, ← length_codeLayout program.lookup, Image.take_storedOf_append]

/-- The image holds words of code and words of data, as many as the last event tells. -/
theorem words_assemble_eq_append :
    (assemble program config).value.image.words.toList =
      (codeLayout program.lookup program.lines).take
          (min config.usableCapacity (codeSize program.lines)) ++
        program.dataLayout.take ((assemble program config).value.image.size -
          min config.usableCapacity (codeSize program.lines)) := by
  have hdata : program.dataLayout.length = min program.dataCount program.data.length := by
    rw [FirstPass.dataLayout, List.length_map, List.length_take]
  have hsize : program.size = codeSize program.lines + program.dataLayout.length := by
    rw [hdata, FirstPass.size]
  have hrest : min (config.usableCapacity - codeSize program.lines) program.dataLayout.length =
      min config.usableCapacity program.size -
        min config.usableCapacity (codeSize program.lines) := by
    omega
  rw [toList_words_assemble, size_assemble, FirstPass.layout, List.take_append, ← hrest,
    ← length_codeLayout program.lookup, ← List.take_eq_take_min, ← List.take_eq_take_min]

/-- What the log of a whole run shows. -/
theorem viewOf_events_assemble :
    viewOf (assemble program config).events =
      { words := (assemble program config).value.image.loaded
        reports := (assemble program config).diagnostics
        encodings := (program.lines.filter Line.isEncodable).map Line.announcement
        refusals := config.refusals (codeSize program.lines)
        truncations :=
          if config.overflow = .truncate ∧ 0 < (assemble program config).value.image.dropped then
            [(assemble program config).value.image.dropped]
          else [] } := by
  obtain ⟨head, tail, hevents, hhead, htail⟩ := exists_events_assemble program config
  have hlast : viewOf [completion program config] = {} := rfl
  rw [hevents, viewOf_append, viewOf_append, viewOf_append, hhead, htail, hlast,
    viewOf_encodeLines, address?_relocate, diagnostics_assemble, loaded_assemble,
    FirstPass.layout, Image.storedOf_append, refusalsOf_new, length_codeLayout]
  simp only [LogView.append_def, List.nil_append, List.append_nil, List.append_assoc]

/-- The log splits at the announcement of a line. -/
theorem exists_announcement {i : Nat} {line : Line} (hi : program.lines[i]? = some line)
    (hline : line.isEncodable = true) : ∃ before after,
    (assemble program config).events =
        before ++ .encoding line.number (Text.trim line.text) :: after ∧
      viewOf before =
        { words := (assemble program config).value.image.loaded.take
            (codeSize (program.lines.take i))
          reports := program.entries.filterMap (Entry.report? program.symbols) ++
            (program.lines.take (i + 1)).flatMap (Line.reports program.symbols.names config)
          encodings := ((program.lines.take i).filter Line.isEncodable).map Line.announcement
          refusals := config.refusals (codeSize (program.lines.take i)) } := by
  obtain ⟨head, tail, hevents, hhead, -⟩ := exists_events_assemble program config
  obtain ⟨after, hcode⟩ := exists_events_encodeLines hi hline
    (program.symbols.relocate program.instructionCount) config (Image.new config)
  have htake : program.lines.take (i + 1) = program.lines.take i ++ [line] := by
    rw [List.take_add_one, hi]
    rfl
  have hentries := funext (Entry.complaint?_eq program)
  have hlines := funext (Line.complaints_eq program config)
  refine ⟨head ++ ((encodeLines (program.symbols.relocate program.instructionCount) config
      (program.lines.take i) (Image.new config)).events ++
        (line.complaints program.lookup config).map Event.reported),
    after ++ (tail ++ [completion program config]), ?_, ?_⟩
  · rw [hevents, hcode, address?_relocate]
    simp only [List.append_assoc, List.cons_append]
  · rw [viewOf_append, viewOf_append, hhead, viewOf_encodeLines, viewOf_map_reported,
      address?_relocate, take_loaded_assemble, refusalsOf_new, length_codeLayout, hentries, hlines,
      htake, List.flatMap_append]
    simp [LogView.append_def]

end Program

/-- The log of a run agrees with what the run makes of the program. -/
structure LogAgrees (program : FirstPass) (config : Config) (run : Logged Assembly) : Prop where
  /-- The log shows the words of the image at their addresses, the diagnostics, each line that makes
  words once, a refusal for each word of code without room if words are refused, and the number of
  words dropped if they are dropped in silence; all in order. -/
  viewOf_eq : viewOf run.events =
    { words := run.value.image.loaded
      reports := run.diagnostics
      encodings := (program.lines.filter Line.isEncodable).map Line.announcement
      refusals := config.refusals (codeSize program.lines)
      truncations :=
        if config.overflow = .truncate ∧ 0 < run.value.image.dropped then
          [run.value.image.dropped]
        else [] }
  /-- The events of the level of errors are the reports. -/
  errors_eq : (run.events.filter fun event => event.level == .error) =
    run.diagnostics.map Event.reported
  /-- A line is announced behind the reports on it and on what comes before it, and ahead of its own
  words: no words but those of earlier lines have been stored or refused. -/
  announced : ∀ (i : Nat) (line : Line), program.lines[i]? = some line →
    line.isEncodable = true → ∃ before after : List Event,
      run.events = before ++ .encoding line.number (Text.trim line.text) :: after ∧
      viewOf before =
        { words := run.value.image.loaded.take (codeSize (program.lines.take i))
          reports := program.entries.filterMap (Entry.report? program.symbols) ++
            (program.lines.take (i + 1)).flatMap (Line.reports program.symbols.names config)
          encodings := ((program.lines.take i).filter Line.isEncodable).map Line.announcement
          refusals := config.refusals (codeSize (program.lines.take i)) }
  /-- The last event tells how many words of code and of data the image holds. -/
  completed : ∃ codeWords dataWords : Nat,
    run.events.getLast? = some (.completed codeWords dataWords run.value.errorCount) ∧
    codeWords + dataWords = run.value.image.size ∧
    run.value.image.words.toList =
      (codeLayout program.lookup program.lines).take codeWords ++
        program.dataLayout.take dataWords

/-- **The log agrees with the result.** Read from the log, the words stored are the words of the
image at their addresses, and the errors are the diagnostics. Every line that makes words is
announced once, in the order of the lines, behind the reports on it and ahead of its words. A word
of code without room is told of under `reject` and only there, the loss of words in silence under
`truncate` and only there. The last event counts the words of code and of data that were stored. -/
theorem log_agrees_with_result (program : FirstPass) (config : Config) :
    LogAgrees program config (assemble program config) := by
  have hview := viewOf_events_assemble program config
  refine ⟨hview, ?_, ?_, ?_⟩
  · rw [filter_level_error, hview]
  · intro i line hi hline
    exact exists_announcement program config hi hline
  · obtain ⟨head, tail, hevents, -⟩ := exists_events_assemble program config
    refine ⟨_, _, ?_, ?_, words_assemble_eq_append program config⟩
    · rw [hevents, ← List.append_assoc, ← List.append_assoc]
      exact List.getLast?_concat
    · have hle : codeSize program.lines ≤ program.size := Nat.le_add_right _ _
      rw [size_assemble]
      omega

/-- A line with an unknown label finds room for its first word only: the label is reported, the line
announced, its first word stored and its second refused. -/
example :
    (assemble
      { symbols := .empty, instructionCount := 102, data := [5], dataCount := 1, entries := []
        lines := [{ number := 4, text := " prn X ", opcode? := some .prn
                    dest := { operand := .direct { name := "X" } } }] }
      { capacity := 1, overflow := .reject }).events =
    [.finalized 102 0, .entriesChecked 0 0, .reported ⟨some 4, .noSuchLabel "X"⟩,
      .encoding 4 "prn X", .emitted 100 (.instruction .prn 0 1), .wordDropped ⟨1⟩,
      .reported ⟨none, .tooLarge 1 2⟩, .completed 1 0 2] := by
  decide

end SecondPass
