import NexusPipe.Pkg.CacheAccess
import NexusPipe.Proof.Pkg.Retry

namespace NexusPipe.Proof.Pkg.CacheAccess
open Library NexusPipe.Pkg.Retry CacheUsers

variable {V E G : Type} [DecidableEq G] {s : CacheUsers V E G} {g : G} {mu : RWMutex G}
  {cache : ResultCache V E} {ttl : Int}

def hold : CachePc V E → Option Hold
  | .looking | .comparing _ | .deleting | .releasing _ => some .read
  | .storing _ _ | .clearing | .unlocking => some .write
  | .idle | .running | .locking _ _ | .resetting => none

def Modifies : CachePc V E → Prop
  | .deleting | .storing _ _ | .clearing => True
  | _ => False

def Race (s : CacheUsers V E G) : Prop :=
  ∃ g g', g ≠ g' ∧ Modifies (s.pcs g) ∧ (s.pcs g' = .looking ∨ Modifies (s.pcs g'))

def Locked (s : CacheUsers V E G) : Prop := s.mu.Held fun g => hold (s.pcs g)

theorem locked_goto
    (held : mu.Held (Function.update (fun g => hold (s.pcs g)) g (hold pc))) :
    Locked ({ s with mu, cache }.goto g pc) := by
  have same : (fun g' => hold (Function.update s.pcs g pc g')) =
      Function.update (fun g => hold (s.pcs g)) g (hold pc) := by
    funext g'
    by_cases here : g' = g
    · subst here
      simp
    · simp [here]
  rw [← same] at held
  exact held

theorem locked_stay (locked : Locked s) (same : hold (s.pcs g) = hold pc) :
    Locked ({ s with cache }.goto g pc) := by
  refine locked_goto ?_
  rw [← same, Function.update_eq_self]
  exact locked

theorem step_locked (locked : Locked s) (next : s.step a = some s') : Locked s' := by
  unfold step at next
  cases here : s.pcs a.goroutine with
  | idle =>
    simp only [here] at next
    split_ifs at next
    · cases next
      exact locked_stay locked (by rw [here]; rfl)
    · obtain ⟨mu, acquired, rfl⟩ := Option.map_eq_some_iff.mp next
      exact locked_goto (locked.rLock acquired)
  | looking =>
    simp only [here] at next
    split at next <;> cases next <;> exact locked_stay locked (by rw [here]; rfl)
  | comparing entry =>
    simp only [here] at next
    split_ifs at next <;> cases next <;> exact locked_stay locked (by rw [here]; rfl)
  | deleting | storing value err | clearing =>
    simp only [here] at next
    cases next
    exact locked_stay locked (by rw [here]; rfl)
  | releasing hit =>
    simp only [here] at next
    cases next
    have released := locked.rUnlock (g := a.goroutine) (by rw [here]; rfl)
    cases hit <;> exact locked_goto released
  | running =>
    simp only [here] at next
    split at next <;> cases next <;> exact locked_stay locked (by rw [here]; rfl)
  | locking value err | resetting =>
    simp only [here] at next
    obtain ⟨mu, acquired, rfl⟩ := Option.map_eq_some_iff.mp next
    exact locked_goto (locked.lock acquired)
  | unlocking =>
    simp only [here] at next
    cases next
    exact locked_goto (locked.unlock (by rw [here]; rfl))

def Lasting (cache : ResultCache V E) : Prop :=
  cache.ttl ≤ 0 ∧ ∀ key, ∀ entry ∈ cache.entries.lookup key, entry.expiresAt.isZero = true

def Keeps : CachePc V E → Prop
  | .comparing entry => entry.expiresAt.isZero = true
  | .deleting => False
  | _ => True

def Undeleted (s : CacheUsers V E G) : Prop := Lasting s.cache ∧ ∀ g, Keeps (s.pcs g)

theorem undeleted_goto (undeleted : Undeleted s) (lasting : Lasting cache) (keeps : Keeps pc) :
    Undeleted ({ s with mu, cache }.goto g pc) := by
  refine ⟨lasting, fun g' => ?_⟩
  by_cases here : g' = g
  · subst here
    simpa [goto] using keeps
  · simpa [goto, here] using undeleted.2 g'

theorem set_lasting (lasting : Lasting cache) (value : Option V) (err : Option (ResultErr E))
    (first : FirstKey) (now : Time) :
    Lasting (cache.set cacheKey value err cache.ttl first now) := by
  refine ⟨lasting.1, fun key entry found => ?_⟩
  dsimp only [ResultCache.set] at found
  rw [if_neg (Int.not_lt.mpr lasting.1), GoMap.lookup_insert_eq] at found
  split_ifs at found
  · cases found
    rfl
  · rw [GoMap.lookup_erase_eq] at found
    split_ifs at found
    · cases found
    · exact lasting.2 key entry found
  · exact lasting.2 key entry found

theorem step_undeleted (undeleted : Undeleted s) (next : s.step a = some s') : Undeleted s' := by
  have lasting := undeleted.1
  have keeps := undeleted.2 a.goroutine
  unfold step at next
  cases here : s.pcs a.goroutine with
  | idle =>
    simp only [here] at next
    split_ifs at next
    · cases next
      exact undeleted_goto undeleted lasting trivial
    · obtain ⟨mu, acquired, rfl⟩ := Option.map_eq_some_iff.mp next
      exact undeleted_goto undeleted lasting trivial
  | looking =>
    simp only [here] at next
    split at next
    · cases next
      exact undeleted_goto undeleted lasting trivial
    · rename_i entry found
      cases next
      exact undeleted_goto undeleted lasting (lasting.2 cacheKey entry found)
  | comparing entry =>
    rw [here] at keeps
    have unexpired : entry.expiresAt.isZero = true := keeps
    simp only [here, unexpired, Bool.not_true, Bool.false_and, Bool.false_eq_true, if_false] at next
    cases next
    exact undeleted_goto undeleted lasting trivial
  | deleting =>
    rw [here] at keeps
    exact keeps.elim
  | releasing hit =>
    simp only [here] at next
    cases next
    cases hit <;> exact undeleted_goto undeleted lasting trivial
  | running =>
    simp only [here] at next
    split at next <;> cases next <;> exact undeleted_goto undeleted lasting trivial
  | locking value err | resetting =>
    simp only [here] at next
    obtain ⟨mu, acquired, rfl⟩ := Option.map_eq_some_iff.mp next
    exact undeleted_goto undeleted lasting trivial
  | storing value err =>
    simp only [here] at next
    cases next
    exact undeleted_goto undeleted (set_lasting lasting value err a.first a.now) trivial
  | clearing =>
    simp only [here] at next
    cases next
    exact undeleted_goto undeleted ⟨lasting.1, fun key entry found => by cases found⟩ trivial
  | unlocking =>
    simp only [here] at next
    cases next
    exact undeleted_goto undeleted lasting trivial

omit [DecidableEq G] in
theorem not_race (locked : Locked s) (undeleted : Undeleted s) : ¬ Race s := by
  have writes (g : G) (modifies : Modifies (s.pcs g)) : hold (s.pcs g) = some .write := by
    have keeps := undeleted.2 g
    cases here : s.pcs g with
    | deleting =>
      rw [here] at keeps
      exact keeps.elim
    | storing | clearing => rfl
    | idle | looking | comparing | releasing | running | locking | resetting | unlocking =>
      rw [here] at modifies
      exact modifies.elim
  rintro ⟨g, g', two, modifies, accesses⟩
  refine two (locked.eq_of_write (writes g modifies) ?_).symm
  rcases accesses with reads | modifies
  · rw [reads]
    exact Option.some_ne_none _
  · rw [writes g' modifies]
    exact Option.some_ne_none _

noncomputable def racing (value : V) (ttl : Int) (g g' : G) : List (CacheAction V E G) :=
  let act (g : G) (instant : Int) : CacheAction V E G :=
    { goroutine := g
      now := ⟨instant, .utc⟩
      first := Retry.someKey
      stores := some (some value, none) }
  List.replicate 8 (act g 0) ++ [act g' 0, act g 0, act g (ttl + 1)]

theorem racing_race (value : V) (positive : 0 < ttl) (capacity : Int) (two : g ≠ g') :
    ∃ s : CacheUsers V E G,
      runSchedule step { cache := newResultCache ttl capacity } (racing value ttl g g') =
        some s ∧ Race s := by
  have reached : ∃ s : CacheUsers V E G,
      runSchedule step { cache := newResultCache ttl capacity } (racing value ttl g g') =
        some s ∧ s.pcs g = .deleting ∧ s.pcs g' = .looking := by
    simp [racing, List.replicate, runSchedule, step, goto, RWMutex.rLock,
      RWMutex.rUnlock, RWMutex.lock, RWMutex.unlock, newResultCache, ResultCache.set, two,
      two.symm, positive, Time.isZero, Time.add, Time.after, positive.ne']
  obtain ⟨s, run, deleting, looking⟩ := reached
  exact ⟨s, run, g, g', two, by rw [deleting]; trivial, .inl looking⟩

theorem cache_race_free_iff (value : V) (ttl capacity : Int) :
    (∀ (actions : List (CacheAction V E G)) (s : CacheUsers V E G),
      runSchedule CacheUsers.step { cache := newResultCache ttl capacity } actions = some s →
        ¬ Race s) ↔
      ttl ≤ 0 ∨ Subsingleton G := by
  refine ⟨fun free => ?_, fun condition actions s run race => ?_⟩
  · by_contra both
    obtain ⟨positive, several⟩ := not_or.mp both
    rw [not_subsingleton_iff_nontrivial] at several
    obtain ⟨g, g', two⟩ := several.exists_pair_ne
    obtain ⟨s, run, race⟩ := racing_race (E := E) value (Int.not_le.mp positive) capacity two
    exact free _ s run race
  · rcases condition with never | single
    · have locked := runSchedule_invariant Locked
        (fun s a s' holds next => step_locked holds next) run RWMutex.held_init
      have undeleted := runSchedule_invariant Undeleted
        (fun s a s' holds next => step_undeleted holds next) run
        ⟨⟨never, fun key entry found => by cases found⟩, fun g => trivial⟩
      exact not_race locked undeleted race
    · obtain ⟨g, g', two, -⟩ := race
      exact two (Subsingleton.elim g g')

theorem expired_entry_race :
    ∃ s : CacheUsers Unit Unit Bool,
      runSchedule CacheUsers.step { cache := newResultCache 1 0 } (racing () 1 false true) = some s ∧
        Race s :=
  racing_race () one_pos 0 Bool.false_ne_true

end NexusPipe.Proof.Pkg.CacheAccess
