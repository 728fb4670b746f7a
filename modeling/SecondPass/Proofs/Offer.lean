import SecondPass.Image

/-!
# Offering words to an image

An image takes one word at a time, but the effect of a whole row of words is a single cut: as many
as there is room for are stored and the rest are counted. `Image.offer` is that effect, rows join by
`offer_append`, and code and data both reach an image through it (`value_emitAll`,
`value_appendData`). What is offered is never a problem, so it reports no diagnostics.
-/

namespace SecondPass

namespace Image

/-- The number of further words that an image can store. -/
def room (image : Image) : Nat := image.capacity - image.size

/-- The image after a row of words was offered to it. -/
def offer (image : Image) (words : List Word) : Image :=
  { image with
    words := image.words ++ (words.take image.room).toArray
    dropped := image.dropped + (words.length - image.room) }

/-- The load address of the word that comes after `count` further words. It stands still once the
image is full. -/
def addressAfter (image : Image) (count : Nat) : Nat := image.nextAddress + min image.room count

/-! ## Joining rows -/

@[simp] theorem firstAddress_offer (image : Image) (words : List Word) :
    (image.offer words).firstAddress = image.firstAddress := rfl

@[simp] theorem capacity_offer (image : Image) (words : List Word) :
    (image.offer words).capacity = image.capacity := rfl

theorem toList_words_offer (image : Image) (words : List Word) :
    (image.offer words).words.toList = image.words.toList ++ words.take image.room := by
  simp [offer]

theorem size_offer (image : Image) (words : List Word) :
    (image.offer words).size = image.size + min image.room words.length := by
  simp [offer, size]

/-- Every word offered takes up room while there is some. -/
theorem room_offer (image : Image) (words : List Word) :
    (image.offer words).room = image.room - words.length := by
  have hsize := size_offer image words
  unfold room at hsize ⊢
  rw [hsize, capacity_offer]
  omega

@[simp] theorem offer_nil (image : Image) : image.offer [] = image := by
  simp [offer]

/-- Two rows offered one after the other are one row. -/
theorem offer_append (image : Image) (first second : List Word) :
    image.offer (first ++ second) = (image.offer first).offer second := by
  -- the second row meets the room that the first one has left
  have hroom := room_offer image first
  have hwords : ((first ++ second).take image.room).toArray =
      (first.take image.room).toArray ++ (second.take (image.offer first).room).toArray := by
    rw [hroom, List.take_append, List.append_toArray]
  have hdropped : (first ++ second).length - image.room =
      (first.length - image.room) + (second.length - (image.offer first).room) := by
    rw [hroom, List.length_append]
    omega
  rw [offer, hwords, hdropped, ← Array.append_assoc, ← Nat.add_assoc]
  rfl

theorem offer_cons (image : Image) (word : Word) (rest : List Word) :
    image.offer (word :: rest) = (image.offer [word]).offer rest :=
  offer_append image [word] rest

/-! ## Load addresses -/

theorem nextAddress_offer (image : Image) (words : List Word) :
    (image.offer words).nextAddress = image.addressAfter words.length := by
  rw [nextAddress, size_offer, firstAddress_offer, addressAfter, nextAddress, Nat.add_assoc]

theorem addressAfter_offer (image : Image) (words : List Word) (count : Nat) :
    (image.offer words).addressAfter count = image.addressAfter (words.length + count) := by
  rw [addressAfter, nextAddress_offer, room_offer, addressAfter, addressAfter]
  omega

/-- The words that an image shows are its words, each at its distance from the first address. -/
theorem mem_loaded_iff {image : Image} {address : Nat} {word : Word} :
    (address, word) ∈ image.loaded ↔
      ∃ i, image.words.toList[i]? = some word ∧ address = image.firstAddress + i := by
  rw [loaded, List.mem_iff_getElem?]
  simp only [List.getElem?_mapIdx, Option.map_eq_some_iff, Prod.mk.injEq]
  constructor
  · rintro ⟨i, w, hw, ha, rfl⟩
    exact ⟨i, hw, ha.symm⟩
  · rintro ⟨i, hw, ha⟩
    exact ⟨i, word, hw, ha.symm, rfl⟩

/-! ## Every way to push -/

/-- A push offers a row of one word. -/
theorem value_push (image : Image) (word : Word) :
    (image.push word).value = image.offer [word] := by
  -- a full image has no room, any other has room for one word
  by_cases hfull : image.isFull = true
  · have hroom : image.room = 0 := Nat.sub_eq_zero_of_le (isFull_iff.1 hfull)
    rw [push_of_isFull hfull, Logged.value_pure, offer, hroom]
    simp
  · have hroom : [word].take image.room = [word] := by
      apply List.take_of_length_le
      have hlt : image.size < image.capacity :=
        Nat.lt_of_not_le fun hle => hfull (isFull_iff.2 hle)
      simp only [List.length_singleton, room]
      omega
    have hdropped : [word].length - image.room = 0 := by
      have := congrArg List.length hroom
      simp only [List.length_take, List.length_singleton] at this ⊢
      omega
    rw [value_push_of_not_isFull (by simpa using hfull), offer, hroom, hdropped]
    simp

/-- Words of code are offered as one row. -/
theorem value_emitAll (image : Image) (words : List Word) :
    (image.emitAll words).value = image.offer words := by
  induction words generalizing image with
  | nil => rw [offer_nil]; rfl
  | cons word rest ih =>
    rw [emitAll, Logged.value_bind, ih, value_emit, value_push, ← offer_cons]

theorem value_pushData (image : Image) (data : List Int32) :
    (image.pushData data).value = image.offer (data.map Word.data) := by
  induction data generalizing image with
  | nil => rw [List.map_nil, offer_nil]; rfl
  | cons value rest ih =>
    rw [pushData, Logged.value_bind, ih, value_push, ← offer_cons, List.map_cons]

/-- The data segment is offered as one row. -/
theorem value_appendData (image : Image) (data : List Int32) (count : Nat) :
    (image.appendData data count).value = image.offer ((data.take count).map Word.data) :=
  value_pushData image (data.take count)

/-! ## No diagnostics -/

@[simp] theorem diagnostics_push (image : Image) (word : Word) :
    (image.push word).journal.diagnostics = [] := by
  unfold push
  split <;> rfl

@[simp] theorem diagnostics_emit (image : Image) (word : Word) :
    (image.emit word).journal.diagnostics = [] := by
  unfold emit
  split
  · rw [Logged.journal_bind, Journal.diagnostics_append, diagnostics_push]
    rfl
  · exact diagnostics_push image word

@[simp] theorem diagnostics_emitAll (image : Image) (words : List Word) :
    (image.emitAll words).journal.diagnostics = [] := by
  induction words generalizing image with
  | nil => rfl
  | cons word rest ih =>
    rw [emitAll, Logged.journal_bind, Journal.diagnostics_append, diagnostics_emit, ih]
    rfl

@[simp] theorem diagnostics_appendData (image : Image) (data : List Int32) (count : Nat) :
    (image.appendData data count).journal.diagnostics = [] := by
  unfold appendData
  induction data.take count generalizing image with
  | nil => rfl
  | cons value rest ih =>
    rw [pushData, Logged.journal_bind, Journal.diagnostics_append, diagnostics_push, ih]
    rfl

end Image

end SecondPass
