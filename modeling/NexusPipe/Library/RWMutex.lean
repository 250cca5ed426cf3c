import Mathlib.Data.Finset.Basic

namespace NexusPipe.Library

inductive Hold
  | read | write
  deriving DecidableEq

structure RWMutex (G : Type*) where
  readers : Finset G := ∅
  writer : Option G := none

namespace RWMutex
variable {G : Type*} [DecidableEq G] (m : RWMutex G) (g : G)

def rLock : Option (RWMutex G) :=
  if m.writer = none then some { m with readers := insert g m.readers } else none

def rUnlock : RWMutex G := { m with readers := m.readers.erase g }

def lock : Option (RWMutex G) :=
  if m.writer = none ∧ m.readers = ∅ then some { m with writer := some g } else none

omit [DecidableEq G] in
def unlock : RWMutex G := { m with writer := none }

/-- `hold` says who is between which of the calls. -/
structure Held (hold : G → Option Hold) : Prop where
  readers : ∀ g, g ∈ m.readers ↔ hold g = some .read
  writer : ∀ g, m.writer = some g ↔ hold g = some .write
  exclusive : m.writer ≠ none → m.readers = ∅

variable {m g}

omit [DecidableEq G] in
theorem held_init : Held ({} : RWMutex G) fun _ => none :=
  ⟨by simp, by simp, by simp⟩

omit [DecidableEq G] in
theorem Held.eq_of_write (held : m.Held hold) (writing : hold g = some .write)
    (holding : hold g' ≠ none) : g' = g := by
  have writer := (held.writer g).mpr writing
  cases other : hold g' with
  | none => exact absurd other holding
  | some kind =>
    cases kind with
    | read =>
      have member := (held.readers g').mpr other
      rw [held.exclusive (by rw [writer]; exact Option.some_ne_none g)] at member
      cases member
    | write => exact Option.some.inj (((held.writer g').mpr other).symm.trans writer)

theorem Held.rLock (held : m.Held hold) (locked : m.rLock g = some m') :
    m'.Held (Function.update hold g (some .read)) := by
  unfold RWMutex.rLock at locked
  split_ifs at locked with free
  cases locked
  refine ⟨fun x => ?_, fun x => ?_, fun busy => absurd free busy⟩
  · by_cases same : x = g <;> simp [same, held.readers]
  · by_cases same : x = g
    · simp [free, same]
    · rw [Function.update_of_ne same, held.writer]

theorem Held.rUnlock (held : m.Held hold) (reading : hold g = some .read) :
    (m.rUnlock g).Held (Function.update hold g none) := by
  have free : m.writer = none := by
    by_contra busy
    have member := (held.readers g).mpr reading
    rw [held.exclusive busy] at member
    cases member
  refine ⟨fun x => ?_, fun x => ?_, fun busy => absurd free busy⟩
  · by_cases same : x = g <;> simp [RWMutex.rUnlock, same, held.readers]
  · by_cases same : x = g
    · simp [RWMutex.rUnlock, free, same]
    · rw [Function.update_of_ne same]
      exact held.writer x

theorem Held.lock (held : m.Held hold) (locked : m.lock g = some m') :
    m'.Held (Function.update hold g (some .write)) := by
  unfold RWMutex.lock at locked
  split_ifs at locked with free
  cases locked
  refine ⟨fun x => ?_, fun x => ?_, fun _ => free.2⟩
  · by_cases same : x = g
    · simp [free.2, same]
    · rw [Function.update_of_ne same]
      exact held.readers x
  · have nobody := held.writer x
    by_cases same : x = g
    · simp [same]
    · rw [free.1] at nobody
      rw [Function.update_of_ne same, ← nobody]
      simp [Ne.symm same]

theorem Held.unlock (held : m.Held hold) (writing : hold g = some .write) :
    m.unlock.Held (Function.update hold g none) := by
  have writer := (held.writer g).mpr writing
  refine ⟨fun x => ?_, fun x => ?_, fun busy => absurd rfl busy⟩
  · by_cases same : x = g
    · subst same
      simp [RWMutex.unlock, held.readers, writing]
    · rw [Function.update_of_ne same]
      exact held.readers x
  · by_cases same : x = g
    · simp [RWMutex.unlock, same]
    · have other : m.writer = some x ↔ hold x = some .write := held.writer x
      rw [writer] at other
      rw [Function.update_of_ne same, ← other]
      simp [RWMutex.unlock, Ne.symm same]

end RWMutex
end NexusPipe.Library
