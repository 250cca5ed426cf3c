import NexusPipe.Library.Walks
import Mathlib.Data.Finset.Card
import Mathlib.Data.List.Count

namespace NexusPipe.Library
open List

/-- Kahn's worklist: remaining in-degrees, the ready nodes, and the nodes taken from the queue. -/
structure Worklist (α : Type*) where
  degree : α → Int
  queue : List α
  processed : List α

namespace Worklist
variable {α : Type*} [DecidableEq α]

def relax (u : α) (s : Worklist α) (e : α × α) : Worklist α :=
  if e.1 = u then
    { s with
      degree := Function.update s.degree e.2 (s.degree e.2 - 1)
      queue := if s.degree e.2 - 1 = 0 then s.queue ++ [e.2] else s.queue }
  else s

def step (edges : List (α × α)) (s : Worklist α) : Option (Worklist α) :=
  match s.queue with
  | [] => none
  | u :: queue =>
    some (edges.foldl (relax u) { s with queue := queue, processed := s.processed ++ [u] })

theorem foldl_relax (u : α) (edges : List (α × α)) (s : Worklist α) :
    (edges.foldl (relax u) s).processed = s.processed ∧
    (∀ v, (edges.foldl (relax u) s).degree v = s.degree v - edges.count (u, v)) ∧
    ∃ pushed, (edges.foldl (relax u) s).queue = s.queue ++ pushed ∧ pushed.Nodup ∧
      ∀ v, v ∈ pushed ↔ 0 < s.degree v ∧ s.degree v ≤ edges.count (u, v) := by
  induction edges generalizing s with
  | nil =>
    refine ⟨rfl, by simp, [], by simp, nodup_nil, ?_⟩
    intro v
    simp
  | cons e edges ih =>
    obtain ⟨w, v₀⟩ := e
    obtain ⟨processed, degree, pushed, queue, nodup, member⟩ := ih (relax u s (w, v₀))
    simp only [foldl_cons]
    by_cases leaves : w = u
    · subst leaves
      have count (v : α) : ((w, v₀) :: edges).count (w, v) =
          edges.count (w, v) + if v₀ = v then 1 else 0 := by
        simp [count_cons]
      have relaxed (v : α) : (relax w s (w, v₀)).degree v =
          s.degree v - if v₀ = v then 1 else 0 := by
        by_cases same : v₀ = v
        · subst same; simp [relax]
        · simp [relax, same, Function.update_of_ne (Ne.symm same)]
      refine ⟨by simpa [relax] using processed, ?_, ?_⟩
      · intro v
        rw [degree, relaxed, count]
        split_ifs <;> push_cast <;> omega
      · simp only [relaxed] at member
        by_cases zero : s.degree v₀ - 1 = 0
        · refine ⟨v₀ :: pushed, by simpa [relax, zero] using queue, ?_, ?_⟩
          · refine nodup_cons.mpr ⟨?_, nodup⟩
            intro again
            have := (member v₀).mp again
            simp only [↓reduceIte] at this
            omega
          · intro v
            rw [mem_cons, member, count]
            by_cases same : v₀ = v
            · subst same
              simp only [↓reduceIte, true_or, true_iff]
              push_cast
              omega
            · simp [same, Ne.symm same]
        · refine ⟨pushed, by simpa [relax, zero] using queue, nodup, ?_⟩
          intro v
          rw [member, count]
          split_ifs with same
          · subst same; push_cast; omega
          · simp
    · have unchanged : relax u s (w, v₀) = s := by simp [relax, leaves]
      have count (v : α) : ((w, v₀) :: edges).count (u, v) = edges.count (u, v) := by
        simp [leaves]
      rw [unchanged] at processed degree queue member ⊢
      simp only [count]
      exact ⟨processed, degree, pushed, queue, nodup, member⟩

def variant (edges : List (α × α)) (s : Worklist α) : Nat :=
  s.queue.length + ((edges.map Prod.snd).toFinset.filter fun v => 0 < s.degree v).card

theorem variant_step (edges : List (α × α)) (s s' : Worklist α) (next : step edges s = some s') :
    variant edges s' < variant edges s := by
  unfold step at next
  split at next
  · cases next
  · rename_i u queue atHead
    cases next
    obtain ⟨_, degree, pushed, tail, nodup, member⟩ :=
      foldl_relax u edges { s with queue := queue, processed := s.processed ++ [u] }
    let targets := (edges.map Prod.snd).toFinset
    let waiting := targets.filter fun v => 0 < s.degree v
    let still := targets.filter fun v => 0 < s.degree v - edges.count (u, v)
    have disjoint : Disjoint still pushed.toFinset := by
      rw [Finset.disjoint_left]
      intro v isStill isPushed
      have := (member v).mp (mem_toFinset.mp isPushed)
      have := (Finset.mem_filter.mp isStill).2
      simp only at *
      omega
    have inside : still ∪ pushed.toFinset ⊆ waiting := by
      intro v either
      rcases Finset.mem_union.mp either with isStill | isPushed
      · have := Finset.mem_filter.mp isStill
        exact Finset.mem_filter.mpr ⟨this.1, by omega⟩
      · obtain ⟨positive, bounded⟩ := (member v).mp (mem_toFinset.mp isPushed)
        have hit : (u, v) ∈ edges := count_pos_iff.mp (by simp only at positive bounded; omega)
        exact Finset.mem_filter.mpr
          ⟨mem_toFinset.mpr (mem_map.mpr ⟨(u, v), hit, rfl⟩), positive⟩
    have cards := Finset.card_le_card inside
    rw [Finset.card_union_of_disjoint disjoint, toFinset_card_of_nodup nodup] at cards
    simp only [variant, tail, degree, atHead, length_append, length_cons]
    simp only [waiting, still, targets] at cards
    omega

def Edge (edges : List (α × α)) (a b : α) : Prop := (a, b) ∈ edges

structure Invariant (edges : List (α × α)) (nodes : Finset α) (s : Worklist α) : Prop where
  nodup : (s.processed ++ s.queue).Nodup
  degree : ∀ v, s.degree v = (edges.countP fun e => e.2 = v ∧ e.1 ∉ s.processed : Nat)
  ready : ∀ v, v ∈ s.processed ++ s.queue ↔ v ∈ nodes ∧ s.degree v = 0
  ordered : Ordered (Edge edges) s.processed

theorem countP_split (edges : List (α × α)) (processed : List α) (fresh : u ∉ processed) (v : α) :
    (edges.countP fun e => e.2 = v ∧ e.1 ∉ processed) =
      (edges.countP fun e => e.2 = v ∧ e.1 ∉ processed ++ [u]) + edges.count (u, v) := by
  induction edges with
  | nil => rfl
  | cons e edges ih =>
    obtain ⟨w, x⟩ := e
    simp only [countP_cons, count_cons, ih]
    by_cases target : x = v
    · by_cases source : w = u
      · subst target source
        simp [fresh, Nat.add_assoc]
      · simp [target, source]
        omega
    · simp [target]

variable {edges : List (α × α)} {nodes : Finset α} {s : Worklist α}

theorem Invariant.predecessors (invariant : Invariant edges nodes s) {v : α}
    (member : v ∈ s.processed ++ s.queue) : ∀ a, Edge edges a v → a ∈ s.processed := by
  intro a edge
  have zero := ((invariant.ready v).mp member).2
  rw [invariant.degree, Int.natCast_eq_zero, countP_eq_zero] at zero
  simpa using zero (a, v) edge

theorem Invariant.step {s' : Worklist α} (targets : ∀ a b, Edge edges a b → b ∈ nodes)
    (invariant : Invariant edges nodes s) (next : Worklist.step edges s = some s') :
    Invariant edges nodes s' := by
  unfold Worklist.step at next
  split at next
  · cases next
  · rename_i u queue atHead
    rw [Option.some.injEq] at next
    obtain ⟨processed, degree, pushed, tail, nodup, member⟩ :=
      foldl_relax u edges { s with queue := queue, processed := s.processed ++ [u] }
    rw [next] at processed degree tail
    simp only at processed degree tail member
    have old := invariant.nodup
    rw [atHead] at old
    have fresh : u ∉ s.processed := fun again =>
      (nodup_append.mp old).2.2 u again u mem_cons_self rfl
    have counted (v : α) := countP_split edges s.processed fresh v
    have waiting (v : α) := invariant.degree v
    have remaining (v : α) :
        s'.degree v = (edges.countP fun e => e.2 = v ∧ e.1 ∉ s'.processed : Nat) := by
      rw [degree, waiting, processed, counted]
      push_cast
      omega
    have everything : s'.processed ++ s'.queue = (s.processed ++ s.queue) ++ pushed := by
      simp [processed, tail, atHead]
    have isNode {v : α} (isPushed : v ∈ pushed) : v ∈ nodes := by
      obtain ⟨positive, bounded⟩ := (member v).mp isPushed
      exact targets u v (count_pos_iff.mp (by omega))
    refine ⟨?_, remaining, ?_, ?_⟩
    · rw [everything, nodup_append]
      refine ⟨invariant.nodup, nodup, ?_⟩
      rintro v isOld _ isPushed rfl
      have := ((invariant.ready v).mp isOld).2
      have := ((member v).mp isPushed).1
      omega
    · intro v
      have bound := remaining v
      rw [everything, mem_append, invariant.ready, member]
      rw [degree] at bound ⊢
      constructor
      · rintro (⟨inside, zero⟩ | ⟨positive, bounded⟩)
        · exact ⟨inside, by omega⟩
        · exact ⟨isNode ((member v).mpr ⟨positive, bounded⟩), by omega⟩
      · rintro ⟨inside, zero⟩
        by_cases before : s.degree v = 0
        · exact Or.inl ⟨inside, before⟩
        · exact Or.inr ⟨by rw [waiting] at before ⊢; omega, by omega⟩
    · rw [processed]
      exact invariant.ordered.concat (invariant.predecessors (by simp [atHead]))

theorem Invariant.mem_processed (sources : ∀ a b, Edge edges a b → a ∈ nodes)
    (invariant : Invariant edges nodes s) (done : s.queue = []) (v : α) :
    v ∈ s.processed ↔ v ∈ nodes ∧ ¬ FedByCycle (Edge edges) v := by
  have ready := invariant.ready
  simp only [done, append_nil] at ready
  constructor
  · intro member
    exact ⟨((ready v).mp member).1, invariant.ordered.not_fedByCycle member⟩
  · rintro ⟨inside, notFed⟩
    by_contra missing
    let rest : Set α := {x | x ∈ nodes ∧ x ∉ s.processed}
    refine notFed (fedByCycle_of_predecessors (Edge edges) rest
      (nodes.finite_toSet.subset fun x hx => hx.1) ?_ v ⟨inside, missing⟩)
    rintro b ⟨isNode, notDone⟩
    -- A node never taken has an unused incoming edge, whose source was never taken either.
    have positive : s.degree b ≠ 0 := fun zero => notDone ((ready b).mpr ⟨isNode, zero⟩)
    rw [invariant.degree, Ne, Int.natCast_eq_zero, countP_eq_zero] at positive
    push Not at positive
    obtain ⟨⟨a, b'⟩, edge, unused⟩ := positive
    simp only [decide_eq_true_eq] at unused
    obtain ⟨rfl, notProcessed⟩ := unused
    exact ⟨a, ⟨sources a _ edge, notProcessed⟩, edge⟩

end Worklist
end NexusPipe.Library
