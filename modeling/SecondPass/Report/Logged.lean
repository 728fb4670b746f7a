import SecondPass.Report.Event

/-!
# Logged computations

A `Logged` computation is a value together with a journal: the diagnostics it reported and the
events it went through, both in order. `value` forgets the journal, and the lemmas below say what
each part of a sequence of computations is.
-/

namespace SecondPass

/-! ## Journals -/

/-- What a computation left behind besides its value. -/
structure Journal where
  diagnostics : List Diagnostic := []
  events : List Event := []
  deriving DecidableEq, Repr

namespace Journal

/-- The journal of a computation that did nothing worth telling. -/
def empty : Journal := {}

/-- One journal after another. -/
def append (a b : Journal) : Journal := ⟨a.diagnostics ++ b.diagnostics, a.events ++ b.events⟩

instance : Append Journal := ⟨append⟩

@[simp] theorem diagnostics_empty : empty.diagnostics = [] := rfl

@[simp] theorem events_empty : empty.events = [] := rfl

@[simp] theorem diagnostics_append (a b : Journal) :
    (a ++ b).diagnostics = a.diagnostics ++ b.diagnostics := rfl

@[simp] theorem events_append (a b : Journal) : (a ++ b).events = a.events ++ b.events := rfl

@[ext] theorem ext {a b : Journal} (hd : a.diagnostics = b.diagnostics)
    (he : a.events = b.events) : a = b := by
  cases a; cases b; simp_all

@[simp] theorem empty_append (a : Journal) : empty ++ a = a := by ext1 <;> simp

@[simp] theorem append_empty (a : Journal) : a ++ empty = a := by ext1 <;> simp

theorem append_assoc (a b c : Journal) : a ++ b ++ c = a ++ (b ++ c) := by ext1 <;> simp

end Journal

/-! ## Computations -/

/-- A value and the journal of the computation that made it. -/
structure Logged (α : Type) where
  value : α
  journal : Journal

namespace Logged

/-- The diagnostics that a computation reported. -/
def diagnostics {α : Type} (x : Logged α) : List Diagnostic := x.journal.diagnostics

/-- The events that a computation went through. -/
def events {α : Type} (x : Logged α) : List Event := x.journal.events

instance : Monad Logged where
  pure a := ⟨a, Journal.empty⟩
  bind x f := ⟨(f x.value).value, x.journal ++ (f x.value).journal⟩

@[simp] theorem value_pure {α : Type} (a : α) : (pure a : Logged α).value = a := rfl

@[simp] theorem journal_pure {α : Type} (a : α) : (pure a : Logged α).journal = Journal.empty :=
  rfl

@[simp] theorem value_bind {α β : Type} (x : Logged α) (f : α → Logged β) :
    (x >>= f).value = (f x.value).value := rfl

@[simp] theorem journal_bind {α β : Type} (x : Logged α) (f : α → Logged β) :
    (x >>= f).journal = x.journal ++ (f x.value).journal := rfl

@[simp] theorem value_map {α β : Type} (f : α → β) (x : Logged α) :
    (f <$> x).value = f x.value := rfl

@[simp] theorem journal_map {α β : Type} (f : α → β) (x : Logged α) :
    (f <$> x).journal = x.journal := Journal.append_empty x.journal

@[ext] theorem ext {α : Type} {x y : Logged α} (hv : x.value = y.value)
    (hj : x.journal = y.journal) : x = y := by
  cases x; cases y; simp_all

instance : LawfulMonad Logged := LawfulMonad.mk' Logged
  (fun x => by ext1 <;> simp)
  (fun a f => by ext1 <;> simp)
  (fun x f g => by ext1 <;> simp [Journal.append_assoc])

end Logged

/-- Goes through an event. -/
def note (event : Event) : Logged Unit := ⟨(), ⟨[], [event]⟩⟩

/-- Reports a problem, which is an event too. -/
def report (line : Option Nat) (problem : Problem) : Logged Unit :=
  ⟨(), ⟨[⟨line, problem⟩], [.reported ⟨line, problem⟩]⟩⟩

@[simp] theorem journal_note (event : Event) : (note event).journal = ⟨[], [event]⟩ := rfl

@[simp] theorem journal_report (line : Option Nat) (problem : Problem) :
    (report line problem).journal = ⟨[⟨line, problem⟩], [.reported ⟨line, problem⟩]⟩ := rfl

end SecondPass
