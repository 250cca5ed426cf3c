import Mathlib.Algebra.GroupWithZero.Nat
import NexusPipe.Proof.Go
import NexusPipe.Webhooks.Delivery

namespace NexusPipe.Proof.Webhooks.Delivery
open Library NexusPipe.Webhooks List

variable {config : DeliveryConfig} {env : DeliverEnv} {k : Nat} {d : Delivered}

def Succeeded (r : DeliveryResult) : Prop := 200 ≤ r.StatusCode ∧ r.StatusCode < 300

instance : DecidablePred Succeeded := fun _ => inferInstanceAs (Decidable (_ ∧ _))

theorem error_eq_none_iff (exchange : Exchange) (attempt : Int) :
    (sendAttempt exchange attempt).Error = none ↔ Succeeded (sendAttempt exchange attempt) := by
  cases exchange with
  | unsendable | failed | response => simp [sendAttempt, Succeeded]

def result (env : DeliverEnv) (k : Nat) : DeliveryResult := sendAttempt (env.exchange k) (k + 1)

def attempts (env : DeliverEnv) (k : Nat) : List DeliveryResult := (List.range k).map (result env)

def atRound (env : DeliverEnv) : Nat → DeliverState
  | 0 => {}
  | k + 1 => ⟨k + 2, some (result env k), attempts env (k + 1)⟩

theorem result_attempt (env : DeliverEnv) (k : Nat) : (result env k).Attempt = k + 1 := by
  rw [result]
  cases env.exchange k <;> rfl

theorem attempts_succ (env : DeliverEnv) (k : Nat) :
    attempts env (k + 1) = attempts env k ++ [result env k] := by
  rw [attempts, range_succ, map_append, map_singleton, ← attempts]

theorem length_attempts (env : DeliverEnv) (k : Nat) : (attempts env k).length = k := by
  rw [attempts, length_map, length_range]

theorem atRound_attempt (env : DeliverEnv) (k : Nat) : (atRound env k).attempt = k + 1 := by
  cases k with
  | zero => rfl
  | succ k => simp only [atRound]; omega

theorem atRound_sent (env : DeliverEnv) (k : Nat) : (atRound env k).sent = attempts env k := by
  cases k <;> rfl

theorem deliverRound_interrupted (within : (k : Int) + 1 < config.MaxRetries)
    (done : env.interrupted (k + 1) = some cause) : deliverRound config env (atRound env (k + 1)) =
      .inr ⟨.ok (some (result env k), some cause.text), attempts env (k + 1)⟩ := by
  rw [deliverRound, if_pos (by rw [atRound_attempt]; omega), if_pos (by rw [atRound_attempt]; omega),
    atRound_sent, length_attempts, done]
  rfl

theorem deliverRound_sent (within : (k : Int) < config.MaxRetries)
    (waited : k = 0 ∨ env.interrupted k = none) :
    deliverRound config env (atRound env k) =
      if Succeeded (result env k) then .inr ⟨.ok (some (result env k), none), attempts env (k + 1)⟩
      else .inl ⟨toInt64 (k + 1 + 1), some (result env k), attempts env (k + 1)⟩ := by
  have live : (if (atRound env k).attempt > 1 then env.interrupted (atRound env k).sent.length
      else none) = none := by
    rw [atRound_attempt, atRound_sent, length_attempts]
    rcases waited with rfl | live
    · rfl
    · rw [live, ite_self]
  rw [deliverRound, if_pos (by rw [atRound_attempt]; omega), live]
  simp only [atRound_sent, atRound_attempt, length_attempts]
  have same : (sendAttempt (env.exchange k) (k + 1)).Error = none ∧
      (sendAttempt (env.exchange k) (k + 1)).StatusCode ≥ 200 ∧
      (sendAttempt (env.exchange k) (k + 1)).StatusCode < 300 ↔ Succeeded (result env k) := by
    rw [error_eq_none_iff]
    exact and_self_iff
  rw [attempts_succ, if_congr same rfl rfl]
  rfl

theorem deliverRound_exhausted (env : DeliverEnv) (last : (k : Int) + 1 = config.MaxRetries) :
    ∃ err, deliverRound config env (atRound env (k + 1)) =
      .inr ⟨.ok (some (result env k), some err), attempts env (k + 1)⟩ := by
  rw [deliverRound, if_neg (by rw [atRound_attempt]; omega)]
  exact ⟨_, rfl⟩

structure Ends (config : DeliveryConfig) (env : DeliverEnv) (k : Nat) (err : Option Text) : Prop where
  within : (k : Int) < config.MaxRetries
  failed : ∀ j < k, ¬ Succeeded (result env j)
  success : err = none ↔ Succeeded (result env k)
  last : err = none ∨ (k : Int) + 1 = config.MaxRetries ∨ env.interrupted (k + 1) ≠ none

theorem returns_atRound (env : DeliverEnv) (bounded : config.MaxRetries < 2 ^ 63 - 1)
    (rounds : 1 ≤ config.MaxRetries) {left : Nat} (left_eq : (k : Int) + left = config.MaxRetries)
    (failed : ∀ j < k, ¬ Succeeded (result env j)) :
    ∃ k' err, Ends config env k' err ∧ Returns (deliverRound config env) (atRound env k)
      ⟨.ok (some (result env k'), err), attempts env (k' + 1)⟩ := by
  induction left generalizing k with
  | zero =>
    cases k with
    | zero => omega
    | succ k =>
      have last : (k : Int) + 1 = config.MaxRetries := by omega
      obtain ⟨err, ended⟩ := deliverRound_exhausted env last
      refine ⟨k, some err, ⟨by omega, fun j less => failed j (by omega), ?_, .inr (.inl last)⟩,
        (returns_of_inr ended).mpr rfl⟩
      exact iff_of_false (by simp) (failed k (by omega))
  | succ left ih =>
    by_cases waited : k = 0 ∨ env.interrupted k = none
    · have within : (k : Int) < config.MaxRetries := by omega
      have sent := deliverRound_sent within waited
      split_ifs at sent with success
      · exact ⟨k, none, ⟨within, failed, iff_of_true rfl success, .inl rfl⟩,
          (returns_of_inr sent).mpr rfl⟩
      · have same : toInt64 (k + 1 + 1) = k + 2 := toInt64_eq_self (by omega) (by omega)
        have path : Rounds (deliverRound config env) 1 (atRound env k) (atRound env (k + 1)) :=
          .head (by rw [sent, same]; rfl) (.refl _)
        obtain ⟨k', err, ends, returns⟩ := ih (k := k + 1) (by omega) fun j less =>
          (Nat.lt_succ_iff_lt_or_eq.mp less).elim (failed j) fun here => here ▸ success
        exact ⟨k', err, ends, path.returns_iff.mpr returns⟩
    · obtain ⟨first, stopped⟩ := not_or.mp waited
      obtain ⟨k, rfl⟩ := Nat.exists_eq_succ_of_ne_zero first
      obtain ⟨cause, done⟩ := Option.ne_none_iff_exists'.mp stopped
      have within : (k : Int) + 1 < config.MaxRetries := by omega
      have ended := deliverRound_interrupted within done
      refine ⟨k, some cause.text, ⟨by omega, fun j less => failed j (by omega), ?_,
        .inr (.inr stopped)⟩, (returns_of_inr ended).mpr rfl⟩
      exact iff_of_false (by simp) (failed k (by omega))

theorem deliver_ends (bounded : config.MaxRetries < 2 ^ 63 - 1) (rounds : 1 ≤ config.MaxRetries)
    (serialized : serializePayload payload = .ok body) (env : DeliverEnv) :
    ∃ k err, Ends config env k err ∧ ∃ fuel, deliver config payload env fuel =
      some ⟨.ok (some (result env k), err), attempts env (k + 1)⟩ := by
  have start : ((0 : Nat) : Int) + config.MaxRetries.toNat = config.MaxRetries := by omega
  obtain ⟨k, err, ends, fuel, returned⟩ := returns_atRound env bounded rounds start (by simp)
  refine ⟨k, err, ends, fuel, ?_⟩
  rw [deliver, serialized]
  exact returned

def Settles (config : DeliveryConfig) (d : Delivered) : Prop :=
  ∃ result err, d.returned = .ok (result, err) ∧
    (err = none ↔ ∃ r ∈ d.sent, r.Attempt ≤ config.MaxRetries ∧ Succeeded r) ∧
    (err = none → ∃ before r, d.sent = before ++ [r] ∧ result = some r ∧ Succeeded r ∧
      ∀ r' ∈ before, ¬ Succeeded r')

theorem Ends.settles (ends : Ends config env k err) :
    Settles config ⟨.ok (some (result env k), err), attempts env (k + 1)⟩ := by
  have failed : ∀ r' ∈ attempts env k, ¬ Succeeded r' := by
    intro r' member
    obtain ⟨j, inside, rfl⟩ := mem_map.mp member
    exact ends.failed j (mem_range.mp inside)
  refine ⟨some (result env k), err, rfl, ?_, fun success => ?_⟩
  · rw [ends.success, attempts_succ]
    constructor
    · intro success
      refine ⟨result env k, by simp, ?_, success⟩
      have := ends.within
      rw [result_attempt]
      omega
    · rintro ⟨r, member, -, success⟩
      rcases mem_append.mp member with earlier | last
      · exact absurd success (failed r earlier)
      · exact mem_singleton.mp last ▸ success
  · exact ⟨attempts env k, result env k, attempts_succ env k, rfl, ends.success.mp success, failed⟩

def failing : DeliverEnv where
  exchange _ := .response 500 "" 0
  interrupted _ := none

theorem deliver_failing_eq_none (unbounded : 2 ^ 63 - 1 ≤ config.MaxRetries) (data : List UInt8)
    (fuel : Nat) : deliver config (.bytes data) failing fuel = none := by
  refine loopFor_eq_none_of_progress (fun s => s.attempt ≤ config.MaxRetries) ?_
    (by simp only; omega) fuel
  intro s more
  have next : deliverRound config failing s =
      .inl ⟨toInt64 (s.attempt + 1), some (sendAttempt (.response 500 "" 0) s.attempt),
        s.sent ++ [sendAttempt (.response 500 "" 0) s.attempt]⟩ := by
    rw [deliverRound, if_pos more]
    simp [failing, sendAttempt]
  exact ⟨1, _, Nat.one_pos, .head next (.refl _), (toInt64_le _).trans unbounded⟩

theorem deliver_without_attempts (none_allowed : config.MaxRetries ≤ 0)
    (serialized : serializePayload payload = .ok body) (env : DeliverEnv) (fuel : Nat) :
    deliver config payload env (fuel + 1) =
      some ⟨.error (.panic "invalid memory address or nil pointer dereference"), []⟩ := by
  rw [deliver, serialized]
  refine loopFor_inr ?_ fuel
  rw [deliverRound, if_neg (by simp only; omega)]

theorem deliver_settles_iff (config : DeliveryConfig) :
    (∀ payload env, ∃ fuel d, deliver config payload env fuel = some d ∧ Settles config d) ↔
      1 ≤ config.MaxRetries ∧ config.MaxRetries < 2 ^ 63 - 1 := by
  constructor
  · intro settles
    obtain ⟨fuel, d, delivered, ⟨result, err, returned, -⟩⟩ := settles (.bytes []) failing
    constructor
    · by_contra! few
      cases fuel with
      | zero => cases delivered
      | succ fuel =>
        rw [deliver_without_attempts (by omega) rfl] at delivered
        cases delivered
        cases returned
    · by_contra! unbounded
      rw [deliver_failing_eq_none unbounded] at delivered
      cases delivered
  · rintro ⟨rounds, bounded⟩ payload env
    cases serialized : serializePayload payload with
    | error err =>
      refine ⟨0, _, by rw [deliver, serialized], none, _, rfl, ?_, ?_⟩
      · simp
      · simp
    | ok body =>
      obtain ⟨k, err, ends, fuel, delivered⟩ := deliver_ends bounded rounds serialized env
      exact ⟨fuel, _, delivered, ends.settles⟩

theorem deliver_no_retries_panics :
    deliver { defaultDeliveryConfig with MaxRetries := 0 } (.bytes []) failing 1 =
      some ⟨.error (.panic "invalid memory address or nil pointer dereference"), []⟩ :=
  rfl

def Fails (env : DeliverEnv) : Prop :=
  (∀ k, ¬ Succeeded (result env k)) ∧ ∀ k, env.interrupted k = none

theorem deliver_mono (delivered : deliver config payload env fuel = some d) (more : fuel ≤ fuel') :
    deliver config payload env fuel' = some d := by
  unfold deliver at delivered ⊢
  split at delivered
  · exact delivered
  · exact loopFor_mono delivered more

theorem deliver_unique (first : deliver config payload env fuel = some d)
    (second : deliver config payload env fuel' = some d') : d = d' :=
  eq_of_mono (fun _ _ _ more returned => deliver_mono returned more) first second

section
variable (bounded : config.MaxRetries < 2 ^ 63 - 1)
include bounded

theorem ends_of_deliver (delivered : deliver config (.bytes data) env fuel = some d) :
    (∃ k err, Ends config env k err ∧ d = ⟨.ok (some (result env k), err), attempts env (k + 1)⟩) ∨
      d = ⟨.error (.panic "invalid memory address or nil pointer dereference"), []⟩ := by
  have serialized : serializePayload (.bytes data) = .ok data := rfl
  by_cases rounds : 1 ≤ config.MaxRetries
  · obtain ⟨k, err, ends, fuel', ended⟩ := deliver_ends bounded rounds serialized env
    exact .inl ⟨k, err, ends, deliver_unique delivered ended⟩
  · exact .inr (deliver_unique delivered (deliver_without_attempts (by omega) serialized env 0))

theorem length_sent_le (delivered : deliver config (.bytes data) env fuel = some d) :
    (d.sent.length : Int) ≤ max 0 config.MaxRetries := by
  rcases ends_of_deliver bounded delivered with ⟨k, err, ends, rfl⟩ | rfl
  · have := ends.within
    rw [length_attempts]
    omega
  · simp

theorem deliver_of_fails (rounds : 1 ≤ config.MaxRetries) (fails : Fails env) (data : List UInt8) :
    ∃ fuel r err sent, deliver config (.bytes data) env fuel = some ⟨.ok (some r, err), sent⟩ ∧
      (sent.length : Int) = config.MaxRetries := by
  have serialized : serializePayload (.bytes data) = .ok data := rfl
  obtain ⟨k, err, ends, fuel, delivered⟩ := deliver_ends bounded rounds serialized env
  refine ⟨fuel, _, err, _, delivered, ?_⟩
  rw [length_attempts]
  rcases ends.last with success | last | stopped
  · exact absurd (ends.success.mp success) (fails.1 k)
  · omega
  · exact absurd (fails.2 (k + 1)) stopped

end

section
variable {calls : List (Webhook × Delivered)} {id : UUID}

def attemptsTo (id : UUID) (calls : List (Webhook × Delivered)) : Nat :=
  (calls.map fun c => if c.1.ID = id then c.2.sent.length else 0).sum

def listedTimes (id : UUID) (webhooks : List Webhook) : Nat := webhooks.countP (·.ID = id)

theorem attemptsTo_cons (wh : Webhook) (d : Delivered) (calls : List (Webhook × Delivered)) :
    attemptsTo id ((wh, d) :: calls) =
      (if wh.ID = id then d.sent.length else 0) + attemptsTo id calls := by
  rw [attemptsTo, map_cons, sum_cons, ← attemptsTo]

theorem listedTimes_cons (wh : Webhook) (webhooks : List Webhook) :
    listedTimes id (wh :: webhooks) = (if wh.ID = id then 1 else 0) + listedTimes id webhooks := by
  rw [listedTimes, countP_cons, ← listedTimes, Nat.add_comm]
  simp only [decide_eq_true_eq]

theorem deliverAll_cons : deliverAll config data fuel ((wh, env) :: task) = some calls ↔
      ∃ d, deliver config (.bytes data) env fuel = some d ∧
        ((∀ r err, d.returned ≠ .ok (some r, err)) ∧ calls = [(wh, d)] ∨
          (∃ r err, d.returned = .ok (some r, err)) ∧
            ∃ later, deliverAll config data fuel task = some later ∧ calls = (wh, d) :: later) := by
  rw [deliverAll, Option.bind_eq_some_iff]
  refine exists_congr fun d => and_congr_right fun _ => ?_
  split
  · next r err returned =>
      simp only [Option.map_eq_some_iff, returned]
      constructor
      · rintro ⟨later, rest, rfl⟩
        exact .inr ⟨⟨r, err, rfl⟩, later, rest, rfl⟩
      · rintro (⟨other, -⟩ | ⟨-, later, rest, rfl⟩)
        · exact absurd rfl (other r err)
        · exact ⟨later, rest, rfl⟩
  · next other =>
      constructor
      · intro same
        exact .inl ⟨other, (Option.some.inj same).symm⟩
      · rintro (⟨-, rfl⟩ | ⟨⟨r, err, returned⟩, -⟩)
        · rfl
        · exact absurd returned (other r err)

theorem deliverAll_mono (delivered : deliverAll config data fuel task = some calls)
    (more : fuel ≤ fuel') : deliverAll config data fuel' task = some calls := by
  induction task generalizing calls with
  | nil => exact delivered
  | cons c task ih =>
    obtain ⟨d, first, ends⟩ := deliverAll_cons.mp delivered
    refine deliverAll_cons.mpr ⟨d, deliver_mono first more, ends.imp_right ?_⟩
    rintro ⟨returned, later, rest, same⟩
    exact ⟨returned, later, ih rest, same⟩

theorem deliverAll_unique (first : deliverAll config data fuel task = some calls)
    (second : deliverAll config data fuel' task = some calls') : calls = calls' :=
  eq_of_mono (fun _ _ _ more returned => deliverAll_mono returned more) first second

theorem attemptsTo_le (bounded : config.MaxRetries < 2 ^ 63 - 1)
    (delivered : deliverAll config data fuel task = some calls) :
    (attemptsTo id calls : Int) ≤ listedTimes id (task.map (·.1)) * max 0 config.MaxRetries := by
  induction task generalizing calls with
  | nil =>
    obtain rfl := Option.some.inj delivered
    simp [attemptsTo, listedTimes]
  | cons c task ih =>
    obtain ⟨wh, env⟩ := c
    obtain ⟨d, first, ends⟩ := deliverAll_cons.mp delivered
    have here := length_sent_le bounded first
    have later : (attemptsTo id calls : Int) ≤ (if wh.ID = id then d.sent.length else 0 : Nat) +
        listedTimes id (task.map (·.1)) * max 0 config.MaxRetries := by
      rcases ends with ⟨-, rfl⟩ | ⟨-, later, rest, rfl⟩
      · have nonneg : 0 ≤ (listedTimes id (task.map (·.1)) : Int) * max 0 config.MaxRetries :=
          Int.mul_nonneg (Int.natCast_nonneg _) (le_max_left _ _)
        rw [attemptsTo_cons]
        simpa [attemptsTo] using nonneg
      · have := ih rest
        rw [attemptsTo_cons]
        omega
    rw [map_cons, listedTimes_cons, Int.natCast_add, Int.add_mul]
    split_ifs at later ⊢ <;> omega

theorem deliverAll_of_fails (bounded : config.MaxRetries < 2 ^ 63 - 1)
    (fails : ∀ c ∈ task, Fails c.2) (id : UUID) (data : List UInt8) :
    ∃ fuel calls, deliverAll config data fuel task = some calls ∧
      (attemptsTo id calls : Int) = listedTimes id (task.map (·.1)) * max 0 config.MaxRetries := by
  induction task with
  | nil => exact ⟨0, [], rfl, by simp [attemptsTo, listedTimes]⟩
  | cons c task ih =>
    obtain ⟨wh, env⟩ := c
    rw [forall_mem_cons] at fails
    by_cases rounds : 1 ≤ config.MaxRetries
    · obtain ⟨fuel, r, err, sent, first, count⟩ := deliver_of_fails bounded rounds fails.1 data
      obtain ⟨fuel', later, rest, total⟩ := ih fails.2
      refine ⟨max fuel fuel', (wh, ⟨.ok (some r, err), sent⟩) :: later, ?_, ?_⟩
      · exact deliverAll_cons.mpr ⟨_, deliver_mono first (Nat.le_max_left _ _),
          .inr ⟨⟨r, err, rfl⟩, later, deliverAll_mono rest (Nat.le_max_right _ _), rfl⟩⟩
      · rw [attemptsTo_cons, map_cons, listedTimes_cons, Int.natCast_add, Int.natCast_add, total,
          Int.add_mul, max_eq_right (by omega)]
        split_ifs <;> simp [count]
    · have serialized : serializePayload (.bytes data) = .ok data := rfl
      have panics : deliver config (.bytes data) env 1 = _ :=
        deliver_without_attempts (by omega) serialized env 0
      refine ⟨1, _, deliverAll_cons.mpr ⟨_, panics, .inl ⟨by simp, rfl⟩⟩, ?_⟩
      rw [max_eq_left (by omega), Int.mul_zero, attemptsTo_cons]
      simp [attemptsTo]

theorem fails_failing : Fails failing :=
  ⟨fun _ => by simp [Succeeded, result, failing, sendAttempt], fun _ => rfl⟩

theorem attempts_follow_webhook_iff (config : DeliveryConfig) (data : List UInt8)
    {webhooks : List Webhook} {wh : Webhook} (listed : wh ∈ webhooks) :
    ((∀ task, task.map (·.1) = webhooks → ∀ fuel calls,
        deliverAll config data fuel task = some calls →
          (attemptsTo wh.ID calls : Int) ≤ wh.RetryConfig.MaxRetries) ∧
      ∀ task, task.map (·.1) = webhooks → (∀ c ∈ task, Fails c.2) → ∃ fuel calls,
        deliverAll config data fuel task = some calls ∧
          attemptsTo wh.ID calls = wh.RetryConfig.MaxRetries) ↔ config.MaxRetries < 2 ^ 63 - 1 ∧
        listedTimes wh.ID webhooks * max 0 config.MaxRetries = wh.RetryConfig.MaxRetries := by
  constructor
  · rintro ⟨-, exact⟩
    let task := webhooks.map fun wh => (wh, failing)
    have webhooks_eq : task.map (·.1) = webhooks := map_map.trans (map_id webhooks)
    have fails : ∀ c ∈ task, Fails c.2 := by simp [task, fails_failing]
    obtain ⟨fuel, calls, delivered, count⟩ := exact task webhooks_eq fails
    have bounded : config.MaxRetries < 2 ^ 63 - 1 := by
      by_contra! unbounded
      obtain ⟨first, rest, rfl⟩ := exists_cons_of_ne_nil (ne_nil_of_mem listed)
      obtain ⟨d, returned, -⟩ := deliverAll_cons.mp delivered
      rw [deliver_failing_eq_none unbounded] at returned
      cases returned
    obtain ⟨fuel', calls', delivered', count'⟩ := deliverAll_of_fails bounded fails wh.ID data
    obtain rfl := deliverAll_unique delivered delivered'
    exact ⟨bounded, by rw [← count, count', webhooks_eq]⟩
  · rintro ⟨bounded, limit⟩
    constructor
    · rintro task rfl fuel calls delivered
      exact limit ▸ attemptsTo_le bounded delivered
    · rintro task rfl fails
      exact limit ▸ deliverAll_of_fails bounded fails wh.ID data

def sampleWebhook (maxRetries : Int) : Webhook where
  ID := 7
  Name := "ci"
  URL := "https"
  Secret := ""
  Status := .active
  Events := Slice.make [] ["e"] [] |>.2
  Headers := ∅
  RetryConfig := { defaultDeliveryConfig with MaxRetries := maxRetries }
  CreatedAt := .zero
  UpdatedAt := .zero

theorem attempts_follow_sample : ((∀ task, task.map (·.1) = [sampleWebhook 3] → ∀ fuel calls,
        deliverAll defaultDeliveryConfig [] fuel task = some calls →
          (attemptsTo 7 calls : Int) ≤ 3) ∧
      ∀ task, task.map (·.1) = [sampleWebhook 3] → (∀ c ∈ task, Fails c.2) → ∃ fuel calls,
        deliverAll defaultDeliveryConfig [] fuel task = some calls ∧
          (attemptsTo 7 calls : Int) = 3) ↔
      (3 : Int) < 2 ^ 63 - 1 ∧ (listedTimes 7 [sampleWebhook 3] : Int) * max 0 3 = 3 :=
  attempts_follow_webhook_iff defaultDeliveryConfig [] (mem_singleton.mpr rfl)

theorem three_attempts_for_one :
    ∃ calls, deliverAll defaultDeliveryConfig [] 4 [(sampleWebhook 1, failing)] = some calls ∧
      attemptsTo 7 calls = 3 ∧ (sampleWebhook 1).RetryConfig.MaxRetries = 1 :=
  ⟨_, rfl, by decide, rfl⟩

end

end NexusPipe.Proof.Webhooks.Delivery
