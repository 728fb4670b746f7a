import SecondPass.Proofs.Run

/-!
# Growth of an image

An image is changed by three kinds of steps: a word is pushed, data are appended, a line is encoded.
The line brings its own table and settings, which need not be those that the image was made from.
Whatever the steps and their order, each offers a row of words (`ImageStep.offered`) and the image
keeps the rows offered so far as well as it can: `Image.Follows` is this invariant,
`Follows.apply` says that a step keeps it and `follows_run` that every run does. What a step cannot
undo is `Image.GrowsTo`, for which there is a step lemma and a run lemma as well.
-/

namespace SecondPass

/-! ## Steps -/

/-- A step that works on an image. -/
inductive ImageStep where
  /-- Pushes a word. -/
  | push (word : Word)
  /-- Appends the first `count` values of a data segment. -/
  | appendData (data : List Int32) (count : Nat)
  /-- Encodes a line in any state. -/
  | encode (line : Line) (symbols : SymbolTable .final) (config : Config)

namespace ImageStep

/-- The words that a step offers to the image. -/
def offered : ImageStep → List Word
  | push word => [word]
  | appendData data count => (data.take count).map Word.data
  | encode line symbols _ => line.layout symbols.address?

/-- What a step reports. -/
def complaints : ImageStep → List Diagnostic
  | encode line symbols config => line.complaints symbols.address? config
  | _ => []

end ImageStep

namespace Image

/-- The image after a step. -/
def apply (image : Image) : ImageStep → Logged Image
  | .push word => image.push word
  | .appendData data count => image.appendData data count
  | .encode line symbols config => LineEncoding.image <$> line.encode symbols config image

/-- The image after steps that were made one after the other. -/
def run (image : Image) : List ImageStep → Logged Image
  | [] => pure image
  | step :: rest => do
    let image ← image.apply step
    image.run rest

/-- A step offers its words and does nothing else to the image. -/
theorem value_apply (image : Image) (step : ImageStep) :
    (image.apply step).value = image.offer step.offered := by
  cases step with
  | push word => exact image.value_push word
  | appendData data count => exact image.value_appendData data count
  | encode line symbols config =>
    rw [apply, Logged.value_map, Line.value_encode]
    rfl

theorem diagnostics_apply (image : Image) (step : ImageStep) :
    (image.apply step).journal.diagnostics = step.complaints := by
  cases step with
  | push word => exact image.diagnostics_push word
  | appendData data count => exact image.diagnostics_appendData data count
  | encode line symbols config =>
    rw [apply, Logged.journal_map, Line.diagnostics_encode]
    rfl

/-- A run is its first steps and then the others. -/
theorem run_append (image : Image) (first second : List ImageStep) :
    image.run (first ++ second) = image.run first >>= fun image => image.run second := by
  induction first generalizing image with
  | nil => rw [List.nil_append, run, pure_bind]
  | cons step rest ih =>
    rw [List.cons_append, run, run, bind_assoc]
    congr 1
    funext image
    exact ih image

theorem diagnostics_run (image : Image) (steps : List ImageStep) :
    (image.run steps).diagnostics = steps.flatMap ImageStep.complaints := by
  induction steps generalizing image with
  | nil => rfl
  | cons step rest ih =>
    have hrest : ((image.apply step).value.run rest).journal.diagnostics =
        rest.flatMap ImageStep.complaints := ih _
    rw [Logged.diagnostics, run, Logged.journal_bind, Journal.diagnostics_append,
      diagnostics_apply, hrest, List.flatMap_cons]

/-! ## What no step undoes -/

/-- An image grows to another one when that has the same settings and further words behind the same
words. -/
structure GrowsTo (before after : Image) : Prop where
  words_prefix : before.words.toList <+: after.words.toList
  capacity_eq : after.capacity = before.capacity
  firstAddress_eq : after.firstAddress = before.firstAddress
  overflow_eq : after.overflow = before.overflow

theorem GrowsTo.refl (image : Image) : image.GrowsTo image :=
  ⟨List.prefix_rfl, rfl, rfl, rfl⟩

theorem GrowsTo.trans {first second third : Image} (h : first.GrowsTo second)
    (h' : second.GrowsTo third) : first.GrowsTo third where
  words_prefix := h.words_prefix.trans h'.words_prefix
  capacity_eq := h'.capacity_eq.trans h.capacity_eq
  firstAddress_eq := h'.firstAddress_eq.trans h.firstAddress_eq
  overflow_eq := h'.overflow_eq.trans h.overflow_eq

theorem growsTo_apply (image : Image) (step : ImageStep) :
    image.GrowsTo (image.apply step).value := by
  rw [value_apply]
  refine ⟨?_, rfl, rfl, rfl⟩
  rw [toList_words_offer]
  exact List.prefix_append _ _

theorem growsTo_run (image : Image) (steps : List ImageStep) :
    image.GrowsTo (image.run steps).value := by
  induction steps generalizing image with
  | nil => exact GrowsTo.refl image
  | cons step rest ih => exact (image.growsTo_apply step).trans (ih (image.apply step).value)

/-! ## What every step keeps -/

/-- An image follows a row of words when it holds as many of them as it can, from the first on, and
has counted the others. -/
structure Follows (image : Image) (offered : List Word) : Prop where
  size_le : image.size ≤ image.capacity
  size_add_dropped : image.size + image.dropped = offered.length
  words_eq : image.words.toList = offered.take image.size
  /-- No word is passed over while there is room. -/
  isFull_of_dropped : 0 < image.dropped → image.isFull = true

theorem follows_new (config : Config) : (Image.new config).Follows [] where
  size_le := Nat.zero_le _
  size_add_dropped := rfl
  words_eq := rfl
  isFull_of_dropped := fun h => absurd h (Nat.lt_irrefl 0)

/-- The words of an image and those that it has room for are the first words of the longer row. -/
theorem Follows.take_append {image : Image} {offered : List Word} (h : image.Follows offered)
    (words : List Word) :
    image.words.toList ++ words.take image.room =
      (offered ++ words).take (image.size + min image.room words.length) := by
  have hlength := h.size_add_dropped
  rw [h.words_eq, List.take_append]
  rcases Nat.eq_zero_or_pos image.dropped with hdropped | hdropped
  -- nothing was dropped, so the image holds the whole row and the new words come behind it
  · have hsize : image.size = offered.length := by omega
    rw [hsize, List.take_length, List.take_of_length_le (Nat.le_add_right _ _),
      Nat.add_sub_cancel_left, ← List.take_eq_take_min]
  -- the image is full, so nothing is stored any more
  · have hfull := isFull_iff.1 (h.isFull_of_dropped hdropped)
    have hroom : image.room = 0 := Nat.sub_eq_zero_of_le hfull
    have hsize : image.size - offered.length = 0 := by omega
    rw [hroom, Nat.zero_min, Nat.add_zero, hsize]

theorem Follows.offer {image : Image} {offered : List Word} (h : image.Follows offered)
    (words : List Word) : (image.offer words).Follows (offered ++ words) := by
  have hle := h.size_le
  have hlength := h.size_add_dropped
  have hsize := size_offer image words
  have hroom : image.room = image.capacity - image.size := rfl
  have hdropped : (image.offer words).dropped = image.dropped + (words.length - image.room) := rfl
  refine ⟨?_, ?_, ?_, ?_⟩
  · rw [hsize, capacity_offer]
    omega
  · rw [hsize, hdropped, List.length_append]
    omega
  · rw [hsize, toList_words_offer, h.take_append]
  · intro hpos
    rw [isFull_iff, capacity_offer, hsize]
    rcases Nat.eq_zero_or_pos image.dropped with hzero | hbefore
    · omega
    · have hfull := isFull_iff.1 (h.isFull_of_dropped hbefore)
      omega

/-- A step keeps the invariant. -/
theorem Follows.apply {image : Image} {offered : List Word} (h : image.Follows offered)
    (step : ImageStep) : (image.apply step).value.Follows (offered ++ step.offered) := by
  rw [value_apply]
  exact h.offer step.offered

/-- A run keeps the invariant. -/
theorem Follows.run {image : Image} {offered : List Word} (h : image.Follows offered)
    (steps : List ImageStep) :
    (image.run steps).value.Follows (offered ++ steps.flatMap ImageStep.offered) := by
  induction steps generalizing image offered with
  | nil => simpa [Image.run] using h
  | cons step rest ih =>
    have hrest := ih (h.apply step)
    rwa [List.append_assoc, ← List.flatMap_cons] at hrest

theorem follows_run (config : Config) (steps : List ImageStep) :
    ((Image.new config).run steps).value.Follows (steps.flatMap ImageStep.offered) := by
  have h := (follows_new config).run steps
  rwa [List.nil_append] at h

end Image

/-! ## Growth over whole runs -/

/-- **An image only grows.** Take an image that was made from settings and went through any steps.
It never holds more than its capacity; it holds the first of the words offered so far, in order, and
has counted all the others; and it has dropped a word only if it is full. Whatever steps come next,
its words stay where they are, its settings stay as they are, and no diagnostic is withdrawn. -/
theorem image_only_grows (config : Config) (history steps : List ImageStep) :
    let before := (Image.new config).run history
    let after := (Image.new config).run (history ++ steps)
    before.value.Follows (history.flatMap ImageStep.offered) ∧
      before.value.GrowsTo after.value ∧
      before.diagnostics <+: after.diagnostics := by
  intro before after
  have hafter : after.value = (before.value.run steps).value := by
    simp only [after, before, Image.run_append, Logged.value_bind]
  refine ⟨Image.follows_run config history, ?_, ?_⟩
  · rw [hafter]
    exact before.value.growsTo_run steps
  · simp only [after, before, Image.diagnostics_run, List.flatMap_append]
    exact List.prefix_append _ _

/-- The capacity is reached inside the line. The settings that the line comes with promise more
room, but neither its last word nor the word pushed behind it is stored. -/
example :
    let line : Line := { number := 3, text := "jmp LIST[3]", opcode? := some .jmp
                         dest := { operand := .indexed { name := "LIST" } 3 } }
    let image := ((Image.new { capacity := 3 }).run
      [.appendData [7, 8] 1, .encode line .empty { capacity := 90, overflow := .reject },
        .push .zero]).value
    image.words.toList = [.data 7, .instruction .jmp 0 2, .tagged .relocatable 0] ∧
      image.dropped = 2 := by
  decide

end SecondPass
