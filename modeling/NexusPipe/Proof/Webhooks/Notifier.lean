import NexusPipe.Proof.Webhooks.Ledger

namespace NexusPipe.Proof.Webhooks.Notifier
open Library NexusPipe.Webhooks Tasks List

/-- A copy of a task, with the number of the call of `processTask` that works on it, if any, and the
webhooks that are still to be sent to. -/
structure Copy where
  number : Option Nat
  task : UUID
  webhooks : List UUID
  deriving DecidableEq

def waiting (t : NotificationTask) : Copy := ⟨none, t.ID, t.Webhooks⟩

def unsent (p : Processing) : List UUID := if p.sending then p.ahead.tail else p.ahead

def inHand (p : Processing) : Copy := ⟨some p.number, p.task.ID, unsent p⟩

def processorCopies : Processor → List Copy
  | .busy p => [inHand p]
  | .gathering batch => batch.map waiting
  | .flushing p rest _ => inHand p :: rest.map waiting
  | .idle | .exited => []

def copies (n : EventNotifier) : List Copy :=
  n.taskCh.map waiting ++ n.timers.map waiting ++ n.processors.flatMap processorCopies

def Aims (held : List Copy) (number : Nat) (id w : UUID) : Prop :=
  ∃ c ∈ held, c.number ≠ some number ∧ c.task = id ∧ w ∈ c.webhooks

def Resends : NotifierEvent → NotifierEvent → Prop
  | .succeeded number id w, .sent other id' w' => other ≠ number ∧ id' = id ∧ w' = w
  | _, _ => False

def NoResend (log : List NotifierEvent) : Prop := log.Pairwise fun e later => ¬ Resends e later

def HasSucceeded (n : EventNotifier) (id w : UUID) : Prop := ∃ number, .succeeded number id w ∈ n.log

/-- A delivery succeeds only while no other copy aims at the webhook, and one that fails leads to a
retry only while the task has not been delivered to any webhook. -/
def Careful (n : EventNotifier) : NotifierAction → Prop
  | .finish i .delivered _ _ =>
    ∀ q ∈ n.processors[i]?, ∀ p ∈ q.processing, ∀ w ∈ p.ahead.head?,
      ¬ Aims (copies n) p.number p.task.ID w
  | .finish i (.failed _) _ _ =>
    ∀ q ∈ n.processors[i]?, ∀ p ∈ q.processing, p.task.Retries < p.task.MaxRetries →
      ∀ w ∈ p.task.Webhooks, ¬ HasSucceeded n p.task.ID w
  | _ => True

def copyOf : Part → Copy
  | .queued t | .pending t => waiting t
  | .running p => inHand p

def Hits (number : Nat) (id w : UUID) (c : Copy) : Prop :=
  c.number ≠ some number ∧ c.task = id ∧ w ∈ c.webhooks

section
variable {n : EventNotifier} {i : Nat} {id : UUID}

theorem mem_copies : c ∈ copies n ↔
    (∃ t ∈ n.taskCh ++ n.timers, waiting t = c) ∨ ∃ q ∈ n.processors, c ∈ processorCopies q := by
  rw [copies, ← map_append, mem_append, mem_map, mem_flatMap]

theorem mem_processorCopies : c ∈ processorCopies q ↔ ∃ part ∈ processorParts q, copyOf part = c := by
  cases q <;> simp [processorCopies, processorParts, queue, copyOf, eq_comm (a := c)]

theorem mem_copies_iff_part : c ∈ copies n ↔ ∃ part ∈ parts n, copyOf part = c := by
  have working : c ∈ n.processors.flatMap processorCopies ↔
      ∃ part ∈ (n.processors.map processorParts).sum, copyOf part = c := by
    induction n.processors with
    | nil => simp
    | cons q rest ih =>
      rw [flatMap_cons, mem_append, ih, mem_processorCopies]
      simp [or_and_right, exists_or]
  rw [copies, mem_append, working]
  simp [parts, Tasks.waiting, queue, copyOf, or_and_right, exists_or]

theorem processorCopies_subset (member : q ∈ n.processors) : processorCopies q ⊆ copies n :=
  fun _ inside => mem_copies.mpr (.inr ⟨q, member, inside⟩)

theorem inHand_copies (found : n.processors[i]? = some q) (current : q.processing = some p) :
    inHand p ∈ copies n := by
  refine processorCopies_subset (mem_of_getElem? found) ?_
  cases q <;> simp_all [Processor.processing, processorCopies]

theorem aims_iff_part :
    Aims (copies n) number id w ↔ ∃ part ∈ parts n, Hits number id w (copyOf part) := by
  constructor
  · rintro ⟨c, member, hits⟩
    obtain ⟨part, held, rfl⟩ := mem_copies_iff_part.mp member
    exact ⟨part, held, hits⟩
  · rintro ⟨part, held, hits⟩
    exact ⟨_, mem_copies_iff_part.mpr ⟨part, held, rfl⟩, hits⟩

end

def Apart (log : List NotifierEvent) (parts : Multiset Part) : Prop :=
  ∀ number id w, .succeeded number id w ∈ log → ∀ part ∈ parts, ¬ Hits number id w (copyOf part)

structure Unrepeated (l : Ledger) : Prop extends Known l where
  apart : Apart l.log l.parts
  once : NoResend l.log

section
variable {l : Ledger} {p : Processing} {parts : Multiset Part}

theorem apart_cons : Apart log (part ::ₘ parts) ↔
    (∀ number id w, .succeeded number id w ∈ log → ¬ Hits number id w (copyOf part)) ∧
      Apart log parts := by
  simp only [Apart, Multiset.forall_mem_cons, imp_and, forall_and]

theorem Apart.concat (apart : Apart log parts) (other : ∀ number id w, .succeeded number id w ≠ e) :
    Apart (log ++ [e]) parts := by
  intro number id w member
  rcases mem_append.mp member with old | new
  · exact apart number id w old
  · exact absurd (mem_singleton.mp new) (other number id w)

theorem Apart.replace (apart : Apart log (part ::ₘ parts))
    (weaker : ∀ number id w, Hits number id w (copyOf part') → Hits number id w (copyOf part)) :
    Apart log (part' ::ₘ parts) := by
  obtain ⟨own, others⟩ := apart_cons.mp apart
  exact apart_cons.mpr ⟨fun number id w done hits => own number id w done (weaker _ _ _ hits), others⟩

theorem noResend_concat (once : NoResend log) (apart : ∀ e' ∈ log, ¬ Resends e' e) :
    NoResend (log ++ [e]) :=
  pairwise_append.mpr ⟨once, pairwise_singleton _ _, fun e' old _ new =>
    mem_singleton.mp new ▸ apart e' old⟩

-- only a send can repeat something
theorem not_resends (unsent : ∀ number id w, e ≠ .sent number id w) (e' : NotifierEvent) :
    ¬ Resends e' e := by
  cases e with
  | sent number id w => exact absurd rfl (unsent number id w)
  | _ => cases e' <;> exact id

theorem unrepeated_calm (careful : ∀ l p, ending l p → ∀ w ∈ p.ahead.head?, ∀ part ∈ l.parts,
      ¬ Hits p.number p.task.ID w (copyOf part))
    (before : Unrepeated l) (step : Calm ending l l') : Unrepeated l' := by
  have known := known_calm before.toKnown step
  have once := before.once
  have apart := before.apart
  cases step with
  | accept task new =>
    refine ⟨known, apart_cons.mpr ⟨?_, apart⟩, once⟩
    rintro number _ w done ⟨-, rfl, -⟩
    exact new (before.events _ done).1
  | begin begins =>
    cases begins
    refine ⟨known, .concat (apart.replace ?_) (by simp),
      noResend_concat once fun e' _ => not_resends (by simp) e'⟩
    exact fun number id w hits => ⟨by simp [copyOf, waiting], hits.2⟩
  | send w ahead =>
    refine ⟨known, .concat (apart.replace ?_) (by simp), noResend_concat once fun e' old => ?_⟩
    · exact fun number id v hits => ⟨hits.1, hits.2.1, mem_cons_of_mem w hits.2.2⟩
    · cases e' with
      | succeeded number id v =>
        rintro ⟨other, rfl, rfl⟩
        refine apart number _ _ old _ (Multiset.mem_cons_self _ _) ⟨?_, rfl, mem_cons_self⟩
        simpa [copyOf, inHand] using other
      | _ => exact id
  | succeed w ahead ends =>
    have away := Multiset.forall_mem_cons.mp (careful _ _ ends w rfl)
    have kept : Apart _ (.running ⟨_, _, ahead, false⟩ ::ₘ _) := apart.replace fun _ _ _ hits => hits
    refine ⟨known, fun number id v member => ?_,
      noResend_concat once fun e' _ => not_resends (by simp) e'⟩
    rcases mem_append.mp member with old | new
    · exact kept number id v old
    · obtain ⟨rfl, rfl, rfl⟩ : number = _ ∧ id = _ ∧ v = w := by simpa using new
      exact Multiset.forall_mem_cons.mpr ⟨fun hits => hits.1 rfl, away.2⟩
  | leave p done => exact ⟨known, (apart_cons.mp apart).2, once⟩
  | fire task => exact ⟨known, apart.replace fun _ _ _ hits => hits, once⟩
  | drop task =>
    exact ⟨known, (apart_cons.mp apart).2.concat (by simp),
      noResend_concat once fun e' _ => not_resends (by simp) e'⟩
  | lose task => exact ⟨known, (apart_cons.mp apart).2, once⟩

theorem unrepeated_fails (careful : p.task.Retries < p.task.MaxRetries → ∀ w ∈ p.task.Webhooks,
      ∀ number, .succeeded number p.task.ID w ∉ l.log)
    (before : Unrepeated l) (fails : Fails p l l') : Unrepeated l' := by
  have known := known_fails before.toKnown fails
  cases fails with
  | retry again =>
    refine ⟨known, apart_cons.mpr ⟨?_, before.apart.replace fun _ _ _ hits => hits⟩, before.once⟩
    rintro number _ w done ⟨-, rfl, ahead⟩
    exact careful again w ahead number done
  | bury last =>
    exact ⟨known, .concat (before.apart.replace fun _ _ _ hits => hits) (by simp),
      noResend_concat before.once fun e' _ => not_resends (by simp) e'⟩
  | lose last => exact ⟨known, before.apart.replace fun _ _ _ hits => hits, before.once⟩

theorem unrepeated_step (before : Unrepeated (ledger n)) (careful : Careful n a)
    (stepped : n.step a = some n') : Unrepeated (ledger n') := by
  refine invariant_step (fun l l' => unrepeated_calm ?_) (fun p err l' ends => ?_) before stepped
  · rintro l p ⟨rfl, i, id, now, rfl, q, found, current⟩ w next part held hits
    exact careful q found p current w next (aims_iff_part.mpr ⟨part, held, hits⟩)
  · refine unrepeated_fails ?_ before
    obtain ⟨i, id, now, rfl, q, found, current⟩ := ends
    exact fun again w ahead number done => careful q found p current again w ahead ⟨number, done⟩

end
end NexusPipe.Proof.Webhooks.Notifier
