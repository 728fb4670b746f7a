import SecondPass.Machine.Config
import SecondPass.Report.Logged

/-!
# Memory images

A memory image is a row of words that only grows at its end, up to a capacity. Words offered to a
full image are counted and dropped; under the policy `reject` the image refuses them, under
`truncate` it takes no notice.
-/

namespace SecondPass

/-- The words of a program, loaded from a first address on. -/
structure Image where
  words : Array Word
  capacity : Nat
  firstAddress : Nat
  overflow : OverflowPolicy
  /-- How many words found the image full. -/
  dropped : Nat
  deriving DecidableEq, Repr

namespace Image

/-- An image without words, as large as the settings allow. -/
def new (config : Config) : Image where
  words := #[]
  capacity := config.usableCapacity
  firstAddress := config.firstAddress
  overflow := config.overflow
  dropped := 0

/-- The number of words stored. -/
def size (image : Image) : Nat := image.words.size

/-- Whether no word is stored. -/
def isEmpty (image : Image) : Bool := image.words.isEmpty

/-- Whether no further word can be stored. -/
def isFull (image : Image) : Bool := decide (image.capacity ≤ image.size)

/-- The load address of the next word. -/
def nextAddress (image : Image) : Nat := image.firstAddress + image.size

/-- The words with their load addresses. -/
def loaded (image : Image) : List (Nat × Word) :=
  image.words.toList.mapIdx fun i word => (image.firstAddress + i, word)

/-- The refusal that meets a word offered to the image, if it is refused. -/
def refusal? (image : Image) : Option ImageFull :=
  match image.isFull, image.overflow with
  | true, .reject => some ⟨image.capacity⟩
  | _, _ => none

/-- Offers a word to the image, which stores it or counts it as dropped. -/
def push (image : Image) (word : Word) : Logged Image :=
  if image.isFull then pure { image with dropped := image.dropped + 1 }
  else do
    note (.emitted image.nextAddress word)
    return { image with words := image.words.push word }

/-- Offers a word of code to the image. A refusal is worth an event. -/
def emit (image : Image) (word : Word) : Logged Image :=
  match image.refusal? with
  | some refusal => do
    note (.wordDropped refusal)
    image.push word
  | none => image.push word

/-- Offers words of code to the image, one after the other. -/
def emitAll (image : Image) : List Word → Logged Image
  | [] => pure image
  | word :: rest => do
    let image ← image.emit word
    image.emitAll rest

/-- Offers words of data to the image, one after the other. -/
def pushData (image : Image) : List Int32 → Logged Image
  | [] => pure image
  | value :: rest => do
    let image ← image.push (Word.data value)
    image.pushData rest

/-- Offers the first `count` values of a data segment to the image. -/
def appendData (image : Image) (data : List Int32) (count : Nat) : Logged Image :=
  image.pushData (data.take count)

/-! ## Pushing -/

theorem isFull_iff {image : Image} : image.isFull = true ↔ image.capacity ≤ image.size := by
  simp [isFull]

/-- A full image only counts the word. -/
theorem push_of_isFull {image : Image} (h : image.isFull = true) (word : Word) :
    image.push word = pure { image with dropped := image.dropped + 1 } := by
  simp [push, h]

/-- An image with room stores the word. -/
theorem value_push_of_not_isFull {image : Image} (h : image.isFull = false) (word : Word) :
    (image.push word).value = { image with words := image.words.push word } := by
  simp [push, h]

@[simp] theorem value_emit (image : Image) (word : Word) :
    (image.emit word).value = (image.push word).value := by
  unfold emit
  split <;> rfl

end Image

end SecondPass
