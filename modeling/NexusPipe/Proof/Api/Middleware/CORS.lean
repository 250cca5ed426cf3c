import NexusPipe.Api.Middleware.CORS
import NexusPipe.Library.List

namespace NexusPipe.Proof.Api.Middleware
open Library Strings NexusPipe.Api.Middleware List

def IsScheme (scheme : String) : Prop :=
  scheme.toList.all (fun c => c ∉ [':', '/', '*']) = true

structure IsHost (host : String) : Prop where
  plain : host.toList.all (fun c => c ∉ ['/', '*']) = true
  bracketed : ':' ∈ host.toList →
    host.toList.head? = some '[' ∧ host.toList.getLast? = some ']'
  label : host.toList ≠ [] ∧ host.toList.head? ≠ some '.'

def IsPort (port : String) : Prop := port.toList ≠ [] ∧ port.toList.all Char.isDigit = true

structure Origin where
  scheme : String
  host : String
  port : Option String
  isScheme : IsScheme scheme
  isHost : IsHost host
  isPort : ∀ p, port = some p → IsPort p

def Origin.portSuffix (o : Origin) : String :=
  match o.port with
  | none => ""
  | some p => ":" ++ p

def Origin.text (o : Origin) : String := o.scheme ++ "://" ++ o.host ++ o.portSuffix

inductive Entry
  | plain (o : Origin)
  | wildcard (scheme domain : String) (isScheme : IsScheme scheme) (isHost : IsHost domain)

def Entry.text : Entry → String
  | .plain o => o.text
  | .wildcard scheme domain _ _ => scheme ++ "://*." ++ domain

def Subdomain (host domain : String) : Prop := ∃ labels, host = labels ++ "." ++ domain

def Wildcard (entries : List Entry) (scheme domain : String) : Prop :=
  ∃ isScheme isHost, Entry.wildcard scheme domain isScheme isHost ∈ entries

def Listed (entries : List Entry) (o : Origin) : Prop := o.text ∈ entries.map Entry.text

def Covered (entries : List Entry) (o : Origin) : Prop :=
  ∃ domain, Wildcard entries o.scheme domain ∧ (o.host = domain ∨ Subdomain o.host domain)

section
theorem notMem_scheme (valid : IsScheme scheme) (special : c ∈ [':', '/', '*']) :
    c ∉ scheme.toList := by
  intro member
  have plain := all_eq_true.mp valid c member
  exact of_decide_eq_true plain special

theorem notMem_host (valid : IsHost host) (special : c ∈ ['/', '*']) : c ∉ host.toList := by
  intro member
  have plain := all_eq_true.mp valid.plain c member
  exact of_decide_eq_true plain special

theorem toList_text (o : Origin) : o.text.toList =
    o.scheme.toList ++ ':' :: ('/' :: '/' :: (o.host.toList ++ o.portSuffix.toList)) := by
  simp [Origin.text, String.toList_append]

theorem portSuffix_cases (o : Origin) : (o.port = none ∧ o.portSuffix.toList = []) ∨
    ∃ p, o.port = some p ∧ IsPort p ∧ o.portSuffix.toList = ':' :: p.toList := by
  cases port : o.port with
  | none => exact .inl ⟨rfl, by simp [Origin.portSuffix, port]⟩
  | some p => exact .inr ⟨p, rfl, o.isPort p port, by simp [Origin.portSuffix, port]⟩

theorem notMem_portSuffix (o : Origin) (special : c ∈ ['/', '*', '.', ']']) :
    c ∉ o.portSuffix.toList := by
  rcases portSuffix_cases o with ⟨-, empty⟩ | ⟨p, -, ⟨-, digits⟩, colon⟩
  · rw [empty]
    exact not_mem_nil
  · rw [colon]
    intro member
    rcases mem_cons.mp member with rfl | digit
    · exact absurd special (by decide)
    · have isDigit := all_eq_true.mp digits c digit
      have noDigit : ['/', '*', '.', ']'].all (fun c => !c.isDigit) = true := by decide
      have other := all_eq_true.mp noDigit c special
      rw [isDigit] at other
      exact Bool.noConfusion other

theorem subdomain_iff : Subdomain host domain ↔ '.' :: domain.toList <:+ host.toList := by
  constructor
  · rintro ⟨labels, rfl⟩
    exact ⟨labels.toList, by simp [String.toList_append]⟩
  · rintro ⟨labels, same⟩
    refine ⟨String.ofList labels, String.toList_inj.mp ?_⟩
    simp [String.toList_append, ← same]

theorem not_ends_bracket (o : Origin) (port : o.portSuffix.toList ≠ []) :
    (o.host.toList ++ o.portSuffix.toList).getLast? ≠ some ']' := by
  rw [getLast?_append_of_ne_nil _ port]
  exact fun closing => notMem_portSuffix o (by decide) (mem_of_getLast? closing)

theorem authority_eq_iff (o : Origin) (valid : IsHost domain) :
    o.host.toList ++ o.portSuffix.toList = domain.toList ↔ o.port = none ∧ o.host = domain := by
  rcases portSuffix_cases o with ⟨port, empty⟩ | ⟨p, port, ⟨nonempty, -⟩, colon⟩
  · rw [empty, append_nil, String.toList_inj, port]
    exact (and_iff_right rfl).symm
  · rw [port]
    refine iff_of_false (fun same => ?_) (fun bare => Option.some_ne_none p bare.1)
    have closing := (valid.bracketed (same ▸ by simp [colon])).2
    exact not_ends_bracket o (by simp [colon]) (same ▸ closing)

theorem suffix_text_iff (o : Origin) (valid : IsHost domain) :
    '.' :: domain.toList <:+ o.text.toList ↔ o.port = none ∧ Subdomain o.host domain := by
  have noSlash : '/' ∉ '.' :: domain.toList := by
    simp [notMem_host valid (c := '/') (by decide)]
  have split : o.text.toList = (o.scheme.toList ++ [':', '/']) ++
      '/' :: (o.host.toList ++ o.portSuffix.toList) := by simp [toList_text]
  rw [split, suffix_append_cons_iff noSlash, subdomain_iff]
  rcases portSuffix_cases o with ⟨port, empty⟩ | ⟨p, port, ⟨nonempty, -⟩, colon⟩
  · rw [empty, append_nil, port]
    exact (and_iff_right rfl).symm
  · rw [port]
    refine iff_of_false (fun ends => ?_) (fun bare => Option.some_ne_none p bare.1)
    by_cases bracketed : ':' ∈ domain.toList
    · obtain ⟨before, whole⟩ := ends
      have closing := (valid.bracketed bracketed).2
      refine not_ends_bracket o (by simp [colon]) (whole ▸ ?_)
      rw [getLast?_append_of_ne_nil _ (cons_ne_nil _ _),
        getLast?_cons_of_ne_nil valid.label.1, closing]
    · rw [colon, suffix_append_cons_iff (by simp [bracketed])] at ends
      refine notMem_portSuffix o (c := '.') (by decide) (colon ▸ ?_)
      exact mem_cons_of_mem _ (ends.subset mem_cons_self)

end

section
variable (o : Origin) {scheme : String}

theorem star_notMem_text : '*' ∉ o.text.toList := by
  have inScheme := notMem_scheme o.isScheme (c := '*') (by decide)
  have inHost := notMem_host o.isHost (c := '*') (by decide)
  have inPort := notMem_portSuffix o (c := '*') (by decide)
  simp [toList_text, inScheme, inHost, inPort]

theorem hasPrefix_text_iff (valid : IsScheme scheme) (rest : String) :
    hasPrefix o.text (scheme ++ "://" ++ rest) ↔
      scheme = o.scheme ∧ rest.toList <+: o.host.toList ++ o.portSuffix.toList := by
  have split : (scheme ++ "://" ++ rest).toList =
      scheme.toList ++ ':' :: ('/' :: '/' :: rest.toList) := by simp [String.toList_append]
  rw [hasPrefix_iff, split, toList_text, append_cons_prefix_iff (notMem_scheme valid (by decide))
    (notMem_scheme o.isScheme (by decide)), String.toList_inj]
  simp

theorem text_eq_iff (valid : IsScheme scheme) (isHost : IsHost domain) :
    o.text = scheme ++ "://" ++ domain ↔ o.scheme = scheme ∧ o.port = none ∧ o.host = domain := by
  have split : (scheme ++ "://" ++ domain).toList =
      scheme.toList ++ ':' :: ('/' :: '/' :: domain.toList) := by simp [String.toList_append]
  rw [← String.toList_inj, split, toList_text, append_cons_inj
    (notMem_scheme o.isScheme (by decide)) (notMem_scheme valid (by decide)), String.toList_inj,
    ← authority_eq_iff o isHost]
  simp

theorem matchOrigin_plain (p : Origin) : matchOrigin o.text p.text = true ↔ p.text = o.text := by
  have noStar := star_notMem_text p
  have notHttps : ¬ hasPrefix p.text "https://*." := by
    rw [hasPrefix_iff]
    exact fun starts => noStar (starts.subset (by decide))
  have notHttp : ¬ hasPrefix p.text "http://*." := by
    rw [hasPrefix_iff]
    exact fun starts => noStar (starts.subset (by decide))
  have noPattern : ¬ contains p.text "*" := by
    rw [contains_iff]
    exact fun inside => noStar (inside.subset (by decide))
  have notAny : p.text ≠ "*" := fun any => noStar (by rw [any]; decide)
  simp [matchOrigin, notHttps, notHttp, noPattern, notAny]

def IsWeb (scheme : String) : Prop := scheme = "https" ∨ scheme = "http"

theorem hasPrefix_wildcard_iff (isWeb : IsScheme web) (isScheme : IsScheme scheme) :
    hasPrefix (scheme ++ "://*." ++ domain) (web ++ "://*.") ↔ scheme = web := by
  have split (rest : String) : (scheme ++ "://*." ++ rest).toList =
      scheme.toList ++ ':' :: ('/' :: '/' :: '*' :: '.' :: rest.toList) := by
    simp [String.toList_append]
  have head : (web ++ "://*.").toList = web.toList ++ ':' :: ['/', '/', '*', '.'] := by
    simp [String.toList_append]
  rw [hasPrefix_iff, split, head, append_cons_prefix_iff (notMem_scheme isWeb (by decide))
    (notMem_scheme isScheme (by decide)), String.toList_inj]
  simp [eq_comm]

theorem text_ne_wildcard : scheme ++ "://*." ++ domain ≠ o.text := by
  intro same
  apply star_notMem_text o
  rw [← same]
  simp [String.toList_append]

theorem not_contains_pattern {new : String} (slash : '/' ∈ new.toList) :
    ¬ contains o.text (replaceAll (scheme ++ "://*." ++ domain) '*' new) := by
  rw [contains_iff]
  intro inside
  have slashes := inside.sublist.count_le '/'
  have inScheme := notMem_scheme o.isScheme (c := '/') (by decide)
  have inHost := notMem_host o.isHost (c := '/') (by decide)
  have inPort := notMem_portSuffix o (c := '/') (by decide)
  have two : o.text.toList.count '/' = 2 := by
    simp [toList_text, count_eq_zero_of_not_mem, inScheme, inHost, inPort]
  have third := count_pos_iff.mpr slash
  simp [replaceAll, String.toList_append, two] at slashes
  omega

theorem wildcard_test_iff (isScheme : IsScheme scheme) (isHost : IsHost domain) :
    (hasSuffix o.text ("." ++ domain) || o.text = scheme ++ "://" ++ domain) = true ↔
      o.port = none ∧ (Subdomain o.host domain ∨ o.scheme = scheme ∧ o.host = domain) := by
  have ends := suffix_text_iff o isHost
  rw [show '.' :: domain.toList = ("." ++ domain).toList by simp, ← hasSuffix_iff] at ends
  rw [Bool.or_eq_true, decide_eq_true_iff, ends, text_eq_iff o isScheme isHost]
  grind

theorem matchOrigin_wildcard (isScheme : IsScheme scheme) (isHost : IsHost domain) :
    matchOrigin o.text (scheme ++ "://*." ++ domain) = true ↔ IsWeb scheme ∧
      o.port = none ∧ (Subdomain o.host domain ∨ o.scheme = scheme ∧ o.host = domain) := by
  have https : IsScheme "https" := by unfold IsScheme; decide
  have http : IsScheme "http" := by unfold IsScheme; decide
  have secure : hasPrefix (scheme ++ "://*." ++ domain) "https://*." ↔ scheme = "https" :=
    hasPrefix_wildcard_iff https isScheme
  have insecure : hasPrefix (scheme ++ "://*." ++ domain) "http://*." ↔ scheme = "http" :=
    hasPrefix_wildcard_iff http isScheme
  have notAny : scheme ++ "://*." ++ domain ≠ "*" := by
    intro any
    have short := congrArg String.length any
    rw [String.length_append, String.length_append, show "://*.".length = 5 from rfl,
      show "*".length = 1 from rfl] at short
    omega
  rw [matchOrigin, if_neg notAny, if_neg (text_ne_wildcard o)]
  by_cases isHttps : scheme = "https"
  · subst isHttps
    have web : IsWeb "https" := .inl rfl
    rw [if_pos (secure.mpr rfl), and_iff_right web, ← wildcard_test_iff o https isHost]
    simp only [show "https" ++ "://*." ++ domain = "https://*." ++ domain from rfl,
      trimPrefix_append]
    rfl
  · rw [if_neg (mt secure.mp isHttps)]
    by_cases isHttp : scheme = "http"
    · subst isHttp
      have web : IsWeb "http" := .inr rfl
      rw [if_pos (insecure.mpr rfl), and_iff_right web, ← wildcard_test_iff o http isHost]
      simp only [show "http" ++ "://*." ++ domain = "http://*." ++ domain from rfl,
        trimPrefix_append]
      rfl
    · have hasStar : contains (scheme ++ "://*." ++ domain) "*" := by
        rw [contains_iff]
        exact ⟨(scheme ++ "://").toList, '.' :: domain.toList, by simp [String.toList_append]⟩
      rw [if_neg (mt insecure.mp isHttp), if_pos hasStar]
      refine iff_of_false (not_contains_pattern o (by decide)) ?_
      rintro ⟨web, -⟩
      exact web.elim isHttps isHttp

theorem hasPrefix_host_iff (isScheme : IsScheme scheme) (host : String)
    (noColon : ':' ∉ host.toList) :
    hasPrefix o.text (scheme ++ "://" ++ host) ↔ o.scheme = scheme ∧ hasPrefix o.host host := by
  rw [hasPrefix_text_iff o isScheme, hasPrefix_iff, eq_comm]
  rcases portSuffix_cases o with ⟨-, empty⟩ | ⟨p, -, -, colon⟩
  · rw [empty, append_nil]
  · rw [colon, prefix_append_cons_iff noColon]

theorem isSameOrigin_iff : isSameOrigin o.text = true ↔
    IsWeb o.scheme ∧ hasPrefix o.host "localhost" ∨
      o.scheme = "http" ∧ hasPrefix o.host "127.0.0.1" := by
  have https : IsScheme "https" := by unfold IsScheme; decide
  have http : IsScheme "http" := by unfold IsScheme; decide
  have secure : hasPrefix o.text "https://localhost" ↔
      o.scheme = "https" ∧ hasPrefix o.host "localhost" :=
    hasPrefix_host_iff o https "localhost" (by decide)
  have insecure : hasPrefix o.text "http://localhost" ↔
      o.scheme = "http" ∧ hasPrefix o.host "localhost" :=
    hasPrefix_host_iff o http "localhost" (by decide)
  have loopback : hasPrefix o.text "http://127.0.0.1" ↔
      o.scheme = "http" ∧ hasPrefix o.host "127.0.0.1" :=
    hasPrefix_host_iff o http "127.0.0.1" (by decide)
  have nonempty : o.text ≠ "" := by
    intro empty
    have noText := toList_text o
    rw [empty] at noText
    simp at noText
  rw [isSameOrigin, Bool.or_eq_true, Bool.or_eq_true, Bool.or_eq_true, decide_eq_true_iff,
    secure, insecure, loopback]
  unfold IsWeb
  grind

end

def Reached (entries : List Entry) (o : Origin) : Prop :=
  ∃ scheme domain, IsWeb scheme ∧ Wildcard entries scheme domain ∧ Subdomain o.host domain

theorem entry_accepts_iff (o : Origin) (e : Entry) :
    (e.text = "*" || matchOrigin o.text e.text) = true ↔ e.text = o.text ∨
      ∃ scheme domain isScheme isHost, e = .wildcard scheme domain isScheme isHost ∧
        IsWeb scheme ∧ o.port = none ∧
          (Subdomain o.host domain ∨ o.scheme = scheme ∧ o.host = domain) := by
  have star (text : String) : (text = "*" || matchOrigin o.text text) = matchOrigin o.text text := by
    by_cases any : text = "*" <;> simp [matchOrigin, any]
  rw [star]
  cases e with
  | plain p => simp [Entry.text, matchOrigin_plain]
  | wildcard scheme domain isScheme isHost =>
    rw [Entry.text, matchOrigin_wildcard o isScheme isHost, or_iff_right (text_ne_wildcard o)]
    constructor
    · intro accepted
      exact ⟨scheme, domain, isScheme, isHost, rfl, accepted⟩
    · rintro ⟨_, _, _, _, same, accepted⟩
      cases same
      exact accepted

theorem isOriginAllowed_whitelist (entries : List Entry) (o : Origin) :
    isOriginAllowed o.text ⟨entries.map Entry.text, .whitelist⟩ = true ↔
      Listed entries o ∨ o.port = none ∧
        (Reached entries o ∨ IsWeb o.scheme ∧ Wildcard entries o.scheme o.host) := by
  simp only [isOriginAllowed, any_map, any_eq_true, Function.comp_apply, entry_accepts_iff]
  constructor
  · rintro ⟨e, member, listed | ⟨scheme, domain, isScheme, isHost, rfl, web, bare, reaches⟩⟩
    · exact .inl (mem_map.mpr ⟨e, member, listed⟩)
    · have listed : Wildcard entries scheme domain := ⟨isScheme, isHost, member⟩
      rcases reaches with below | ⟨rfl, rfl⟩
      · exact .inr ⟨bare, .inl ⟨scheme, domain, web, listed, below⟩⟩
      · exact .inr ⟨bare, .inr ⟨web, listed⟩⟩
  · rintro (listed | ⟨bare, ⟨scheme, domain, web, ⟨isScheme, isHost, member⟩, below⟩ |
      ⟨web, isScheme, isHost, member⟩⟩)
    · obtain ⟨e, member, same⟩ := mem_map.mp listed
      exact ⟨e, member, .inl same⟩
    · exact ⟨_, member, .inr ⟨scheme, domain, isScheme, isHost, rfl, web, bare, .inl below⟩⟩
    · exact ⟨_, member, .inr ⟨_, _, isScheme, isHost, rfl, web, bare, .inr ⟨rfl, rfl⟩⟩⟩

theorem isOriginAllowed_structural_iff (entries : List Entry) (origins : List String) (o : Origin) :
    ((isOriginAllowed o.text ⟨entries.map Entry.text, .whitelist⟩ = true ↔
        Listed entries o ∨ Covered entries o) ↔ Listed entries o ∨
        ((Covered entries o → o.port = none ∧ (Reached entries o ∨ IsWeb o.scheme)) ∧
          (o.port = none → Reached entries o → Covered entries o))) ∧
    ((isOriginAllowed o.text ⟨origins, .sameOrigin⟩ = true →
        o.host = "localhost" ∨ o.host = "127.0.0.1") ↔
      (IsWeb o.scheme → hasPrefix o.host "localhost" → o.host = "localhost") ∧
        (o.scheme = "http" → hasPrefix o.host "127.0.0.1" → o.host = "127.0.0.1")) := by
  constructor
  · rw [isOriginAllowed_whitelist]
    have atDomain : IsWeb o.scheme → Wildcard entries o.scheme o.host → Covered entries o :=
      fun _ listed => ⟨o.host, listed, .inl rfl⟩
    have covered : Covered entries o → IsWeb o.scheme →
        Reached entries o ∨ Wildcard entries o.scheme o.host := by
      rintro ⟨domain, listed, same | below⟩ web
      · exact .inr (same ▸ listed)
      · exact .inl ⟨o.scheme, domain, web, listed, below⟩
    grind
  · have accepts : isOriginAllowed o.text ⟨origins, .sameOrigin⟩ = isSameOrigin o.text := rfl
    rw [accepts, isSameOrigin_iff]
    constructor
    · intro onlyLocal
      constructor
      · intro web starts
        refine (onlyLocal (.inl ⟨web, starts⟩)).resolve_right fun loopback => ?_
        exact absurd (loopback ▸ starts) (by decide)
      · intro http starts
        refine (onlyLocal (.inr ⟨http, starts⟩)).resolve_left fun named => ?_
        exact absurd (named ▸ starts) (by decide)
    · rintro ⟨named, loopback⟩ (⟨web, starts⟩ | ⟨http, starts⟩)
      · exact .inl (named web starts)
      · exact .inr (loopback http starts)

def secureSubdomains : Entry :=
  .wildcard "https" "example.com" (by unfold IsScheme; decide)
    ⟨by decide, by decide, by decide⟩

def insecureSubdomain : Origin where
  scheme := "http"
  host := "a.example.com"
  port := none
  isScheme := by unfold IsScheme; decide
  isHost := ⟨by decide, by decide, by decide⟩
  isPort := by simp

def localhostLabel : Origin where
  scheme := "http"
  host := "localhost.evil.com"
  port := none
  isScheme := by unfold IsScheme; decide
  isHost := ⟨by decide, by decide, by decide⟩
  isPort := by simp

theorem insecure_subdomain_allowed :
    (isOriginAllowed insecureSubdomain.text ⟨[secureSubdomains.text], .whitelist⟩ = true ∧
      ¬ (Listed [secureSubdomains] insecureSubdomain ∨
        Covered [secureSubdomains] insecureSubdomain)) ∧
    isOriginAllowed localhostLabel.text ⟨[], .sameOrigin⟩ = true ∧
      ¬ (localhostLabel.host = "localhost" ∨ localhostLabel.host = "127.0.0.1") := by
  refine ⟨⟨by decide, ?_⟩, by decide, by decide⟩
  rintro (listed | ⟨domain, ⟨isScheme, isHost, member⟩, -⟩)
  · exact absurd listed (by unfold Listed; decide)
  · have same := mem_singleton.mp member
    simp [secureSubdomains, insecureSubdomain] at same

end NexusPipe.Proof.Api.Middleware
