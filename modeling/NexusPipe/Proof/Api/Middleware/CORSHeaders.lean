import NexusPipe.Api.Middleware.CORS

namespace NexusPipe.Proof.Api.Middleware
open NexusPipe.Api.Middleware

variable {origin value : String}

def Accepted (config : CORSHandlerConfig) (origin : String) : Prop :=
  ∃ allowed ∈ (normalizeConfig config).AllowedOrigins,
    allowed = "*" ∨ matchOrigin origin allowed = true

def IsAllowOrigin (config : CORSHandlerConfig) (origin value : String) : Prop :=
  (value = origin ∨ value = "*") ∧ (config.AllowCredentials = true → value = origin)

theorem any_iff_accepted (config : CORSHandlerConfig) (origin : String) :
    ((normalizeConfig config).AllowedOrigins.any fun allowed =>
      allowed = "*" || matchOrigin origin allowed) = true ↔ Accepted config origin := by
  simp only [List.any_eq_true, Bool.or_eq_true, decide_eq_true_eq, Accepted]

theorem allowedOrigins_ne_nil (config : CORSHandlerConfig) :
    (normalizeConfig config).AllowedOrigins ≠ [] := by
  change (if config.AllowedOrigins = [] then ["*"] else config.AllowedOrigins) ≠ []
  split_ifs with none
  · exact List.cons_ne_nil _ _
  · exact none

theorem resolveOrigin_spec (config : CORSHandlerConfig)
    (allowed : isOriginAllowed origin (normalizeConfig config).toCORSConfig = true) :
    ∃ value, resolveOrigin origin (normalizeConfig config) = some value ∧
      (IsAllowOrigin config origin value ↔
        ¬ (config.Mode = .sameOrigin ∧ ¬ Accepted config origin)) := by
  have mode : (normalizeConfig config).Mode = config.Mode := rfl
  have credentials : (normalizeConfig config).AllowCredentials = config.AllowCredentials := rfl
  have any := any_iff_accepted config origin
  simp only [resolveOrigin, mode, credentials]
  by_cases star : config.Mode = .allowAll ∧ ¬ config.AllowCredentials = true
  · refine ⟨"*", if_pos star, iff_of_true ⟨.inr rfl, fun given => absurd given star.2⟩ ?_⟩
    simp [star.1]
  rw [if_neg star]
  by_cases accepted : Accepted config origin
  · exact ⟨origin, if_pos (any.mpr accepted),
      iff_of_true ⟨.inl rfl, fun _ => rfl⟩ fun other => other.2 accepted⟩
  rw [if_neg (mt any.mp accepted)]
  by_cases all : config.Mode = .allowAll
  · refine ⟨origin, if_pos all, iff_of_true ⟨.inl rfl, fun _ => rfl⟩ ?_⟩
    simp [all]
  · -- the mode has let the origin through and the list has not: the first entry is sent
    have same : config.Mode = .sameOrigin := by
      by_contra other
      refine accepted (any.mp ?_)
      unfold isOriginAllowed at allowed
      split at allowed
      · contradiction
      · contradiction
      · exact allowed
    obtain ⟨first, rest, entries⟩ := List.exists_cons_of_ne_nil (allowedOrigins_ne_nil config)
    have refused : ¬ (first = "*" ∨ matchOrigin origin first = true) := fun accepts =>
      accepted ⟨first, entries ▸ List.mem_cons_self, accepts⟩
    refine ⟨first, by rw [if_neg all, entries, List.head?_cons],
      iff_of_false (fun sent => ?_) (not_not_intro ⟨same, accepted⟩)⟩
    rcases sent.1 with rfl | rfl
    · exact absurd (.inr (by simp [matchOrigin])) refused
    · exact absurd (.inl rfl) refused

theorem allow_origin_sent (maxAge : Int → String) (config : CORSHandlerConfig) (method : String)
    (named : origin ≠ "") : ∃ answer, cors maxAge config method origin = some answer ∧
      (answer.passage ≠ .abortWithStatus 403 → ∃ value,
        answer.headers.lookup "Access-Control-Allow-Origin" = some value ∧
        (IsAllowOrigin config origin value ↔
          ¬ (config.Mode = .sameOrigin ∧ ¬ Accepted config origin))) := by
  simp only [cors, if_neg named]
  by_cases allowed : isOriginAllowed origin (normalizeConfig config).toCORSConfig = true
  · obtain ⟨value, resolved, sent⟩ := resolveOrigin_spec config allowed
    rw [if_neg (not_not_intro allowed), resolved]
    exact ⟨_, rfl, fun _ => ⟨value, rfl, sent⟩⟩
  · rw [if_pos allowed]
    exact ⟨_, rfl, fun through => absurd rfl through⟩

def sameOriginConfig : CORSHandlerConfig where
  AllowedOrigins := ["https://a.com"]
  Mode := .sameOrigin
  AllowedMethods := []
  AllowedHeaders := []
  ExposedHeaders := []
  AllowCredentials := true
  MaxAge := 0

theorem allow_origin_sent_sample :
    ∃ answer, cors (fun _ => "43200") { sameOriginConfig with Mode := .whitelist } "GET"
        "https://a.com" = some answer ∧
      (answer.passage ≠ .abortWithStatus 403 → ∃ value,
        answer.headers.lookup "Access-Control-Allow-Origin" = some value ∧
        (IsAllowOrigin { sameOriginConfig with Mode := .whitelist } "https://a.com" value ↔
          ¬ (CORSMode.whitelist = .sameOrigin ∧
            ¬ Accepted { sameOriginConfig with Mode := .whitelist } "https://a.com"))) :=
  allow_origin_sent _ _ "GET" (by decide)

theorem other_origin_sent :
    (cors (fun _ => "43200") sameOriginConfig "GET" "http://localhost").map (fun answer =>
      (answer.passage, answer.headers.lookup "Access-Control-Allow-Origin")) =
        some (.next, some "https://a.com") ∧
      ¬ IsAllowOrigin sameOriginConfig "http://localhost" "https://a.com" :=
  ⟨by decide, fun sent => absurd sent.1 (by decide)⟩

end NexusPipe.Proof.Api.Middleware
