import NexusPipe.Cron
import NexusPipe.Library.List

namespace NexusPipe.Proof
open Library Cron List

variable {J : Type} {c : Engine J}

structure Numbered (c : Engine J) : Prop where
  issued : ∀ e ∈ c.entries, e.ID ≤ c.nextID
  distinct : (c.entries.map Entry.ID).Nodup

theorem Numbered.schedule (numbered : Numbered c) (s : Schedule) (job : J) :
    Numbered (c.schedule s job).2 := by
  constructor
  · intro e member
    rcases mem_append.mp member with old | new
    · exact (numbered.issued e old).trans (Nat.le_succ _)
    · rw [mem_singleton.mp new]
      exact Nat.le_refl _
  · have fresh : c.nextID + 1 ∉ c.entries.map Entry.ID := by
      intro member
      obtain ⟨e, old, same⟩ := mem_map.mp member
      have := numbered.issued e old
      omega
    simp only [Engine.schedule, map_append, map_cons, map_nil]
    exact numbered.distinct.append (nodup_singleton _) (disjoint_singleton.mpr fresh)

theorem Numbered.filter (numbered : Numbered c) (keep : Entry J → Bool) :
    Numbered { c with entries := c.entries.filter keep } :=
  ⟨fun e member => numbered.issued e (mem_of_mem_filter member),
    numbered.distinct.sublist (filter_sublist.map _)⟩

theorem less_strictTotal : StrictTotal Activation.less where
  irrefl t := by cases t <;> simp [Activation.less]
  trans t u v before after := by
    cases t <;> cases u <;> cases v <;> simp [Activation.less] at before after ⊢
    omega
  total t u before after := by
    cases t <;> cases u <;> simp [Activation.less] at before after ⊢
    omega

theorem snapshot_next_iff (entries : Snapshot c) (i : Nat) (t : Activation) :
    entries.ids[i]?.map entries.next = some t ↔
      c.entries.countP (fun e => (entries.next e.ID).less t) ≤ i ∧
        i < c.entries.countP (fun e => !t.less (entries.next e.ID)) := by
  rw [map_getElem?_eq_some_iff less_strictTotal entries.sorted, entries.complete.countP_eq,
    entries.complete.countP_eq, countP_map, countP_map]
  rfl

theorem snapshot_length (entries : Snapshot c) : entries.ids.length = c.entries.length := by
  rw [entries.complete.length_eq, length_map]

def entriesBy (next : Nat → Activation) (c : Engine J) : Snapshot c where
  next := next
  ids := (c.entries.map (·.ID)).insertionSort fun a b => (next b).less (next a) = false
  complete := List.perm_insertionSort _ _
  sorted := by
    have : Std.Total fun a b => (next b).less (next a) = false := ⟨fun a b => by
      cases before : (next b).less (next a) with
      | false => exact .inl rfl
      | true => exact .inr (less_strictTotal.asymm before)⟩
    have : IsTrans Nat fun a b => (next b).less (next a) = false := ⟨fun a b c ab bc => by
      rw [← Bool.not_eq_true] at bc ⊢
      exact fun before => bc (less_strictTotal.trans_not before ab)⟩
    exact List.pairwise_insertionSort _ _

end NexusPipe.Proof
