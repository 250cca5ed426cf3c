import NexusPipe.Api.Middleware.Logging
import NexusPipe.Library.Words

namespace NexusPipe.Proof.Api.Middleware.Logging
open NexusPipe.Api.Middleware Strings Library List

variable {unicode : String → String → Bool} {redactList : List String}
  {query other p p' name value : String} {P : String → Prop}

/-- Texts of one parameter that differ at most in its value, and only if `P` holds of its name. -/
def DifferIn (P : String → Prop) (p p' : String) : Prop :=
  p = p' ∨ ∃ name value value', '=' ∉ name.toList ∧ P name ∧
    p = name ++ "=" ++ value ∧ p' = name ++ "=" ++ value'

def SameBut (P : String → Prop) (query other : String) : Prop :=
  List.Forall₂ (DifferIn P) (split query '&') (split other '&')

def Redacted (unicode : String → String → Bool) (redactList : List String) (name : String) : Prop :=
  redactList.any (equalFold unicode name) = true

def Sensitive (unicode : String → String → Bool) (redactList : List String) (name : String) :
    Prop :=
  ∃ decoded, queryUnescape name = some decoded ∧ Redacted unicode redactList decoded

theorem splitN2_param (plain : '=' ∉ name.toList) (value : String) :
    splitN2 (name ++ "=" ++ value) '=' = [name, value] := by
  have before : ∀ c ∈ name.toList, (!decide (c = '=')) = true := by
    intro c member
    simpa using fun same : c = '=' => plain (same ▸ member)
  simp [splitN2, takeWhile_append_of_pos before, dropWhile_append_of_pos before]

theorem redactParam_param (plain : '=' ∉ name.toList) (value : String) :
    redactParam unicode redactList (name ++ "=" ++ value) =
      if redactList.any (equalFold unicode name) then name ++ "=REDACTED"
      else name ++ "=" ++ value := by
  rw [redactParam, splitN2_param plain]

theorem redactParam_plain (plain : '&' ∉ p.toList) :
    '&' ∉ (redactParam unicode redactList p).toList := by
  unfold redactParam splitN2
  by_cases cut : '=' ∈ p.toList
  · rw [if_pos cut]
    dsimp only
    split_ifs
    · rw [String.toList_append, String.toList_ofList, mem_append]
      rintro (before | after)
      · exact plain ((takeWhile_sublist _).subset before)
      · exact absurd after (by decide)
    · exact plain
  · rw [if_neg cut]
    exact plain

theorem redactParam_eq_iff (differ : DifferIn P p p') :
    redactParam unicode redactList p = redactParam unicode redactList p' ↔
      DifferIn (Redacted unicode redactList) p p' := by
  rcases differ with rfl | ⟨name, value, value', plain, -, rfl, rfl⟩
  · exact iff_of_true rfl (.inl rfl)
  rw [redactParam_param plain, redactParam_param plain]
  by_cases listed : redactList.any (equalFold unicode name) = true
  · rw [if_pos listed, if_pos listed]
    exact iff_of_true rfl (.inr ⟨name, value, value', plain, listed, rfl, rfl⟩)
  · rw [if_neg listed, if_neg listed]
    refine ⟨.inl, fun differ => ?_⟩
    rcases differ with same | ⟨name', other, -, plain', listed', same, -⟩
    · exact same
    · have names := congrArg (splitN2 · '=') same
      simp only [splitN2_param plain, splitN2_param plain', cons.injEq] at names
      exact absurd (names.1 ▸ listed') listed

theorem mem_split_plain (member : p ∈ split query '&') : '&' ∉ p.toList := by
  obtain ⟨piece, part, rfl⟩ := mem_map.mp member
  rw [splitOn_eq_splitOnP] at part
  intro inside
  rw [String.toList_ofList] at inside
  exact absurd (mem_splitOnP part inside).2 (by decide)

theorem join_split (query : String) : join (split query '&') "&" = query := by
  have single : "&".toList = ['&'] := rfl
  rw [join, split, map_map, single]
  simp [Function.comp_def, intercalate_splitOn]

theorem split_join (plain : ∀ p ∈ items, '&' ∉ p.toList) (some : items ≠ []) :
    split (join items "&") '&' = items := by
  have single : "&".toList = ['&'] := rfl
  rw [split, join, single, String.toList_ofList, splitOn_intercalate]
  · simp [Function.comp_def]
  · simpa using plain
  · simpa using some

theorem redactQueryParams_eq (query : String) : redactQueryParams unicode query redactList =
      join ((split query '&').map (redactParam unicode redactList)) "&" := by
  unfold redactQueryParams
  split_ifs with unchanged
  · rcases unchanged with rfl | rfl
    · rfl
    · have nothing : redactParam unicode [] = id := by
        funext p
        unfold redactParam
        split <;> rfl
      rw [nothing, map_id, join_split]
  · rfl

theorem redactQueryParams_eq_iff :
    redactQueryParams unicode query redactList = redactQueryParams unicode other redactList ↔
      (split query '&').map (redactParam unicode redactList) =
        (split other '&').map (redactParam unicode redactList) := by
  have kept (query : String) :
      split (redactQueryParams unicode query redactList) '&' =
        (split query '&').map (redactParam unicode redactList) := by
    rw [redactQueryParams_eq, split_join]
    · intro p member
      obtain ⟨q, part, rfl⟩ := mem_map.mp member
      exact redactParam_plain (mem_split_plain part)
    · simp [split, splitOn_ne_nil]
  refine ⟨fun same => ?_, fun same => ?_⟩
  · rw [← kept, ← kept, same]
  · rw [redactQueryParams_eq, redactQueryParams_eq, same]

theorem redacted_query_eq_iff (unicode : String → String → Bool) (redactList : List String)
    (same : SameBut (Sensitive unicode redactList) query other) :
    redactQueryParams unicode query redactList = redactQueryParams unicode other redactList ↔
      SameBut (Redacted unicode redactList) query other := by
  rw [redactQueryParams_eq_iff]
  unfold SameBut at same ⊢
  generalize split query '&' = params at same ⊢
  generalize split other '&' = others at same ⊢
  induction same with
  | nil => exact iff_of_true rfl .nil
  | cons differ rest ih =>
    rw [map_cons, map_cons, cons_eq_cons, redactParam_eq_iff differ, ih, forall₂_cons]

theorem redacted_query_eq_iff_sample :
    SameBut (Sensitive (fun _ _ => false) ["token"]) "a=1&Token=x" "a=1&Token=y" ∧
      (redactQueryParams (fun _ _ => false) "a=1&Token=x" ["token"] =
          redactQueryParams (fun _ _ => false) "a=1&Token=y" ["token"] ↔
        SameBut (Redacted (fun _ _ => false) ["token"]) "a=1&Token=x" "a=1&Token=y") := by
  have same : SameBut (Sensitive (fun _ _ => false) ["token"]) "a=1&Token=x" "a=1&Token=y" :=
    .cons (.inl rfl) (.cons (.inr ⟨"Token", "x", "y", by decide, ⟨"Token", by decide, rfl⟩,
      rfl, rfl⟩) .nil)
  exact ⟨same, redacted_query_eq_iff _ _ same⟩

theorem escaped_name_logged :
    SameBut (Sensitive (fun _ _ => false) ["api_key"]) "api%5Fkey=x" "api%5Fkey=y" ∧
      queryValue "api%5Fkey=x" "api_key" = "x" ∧
      redactQueryParams (fun _ _ => false) "api%5Fkey=x" ["api_key"] = "api%5Fkey=x" ∧
      redactQueryParams (fun _ _ => false) "api%5Fkey=y" ["api_key"] = "api%5Fkey=y" := by
  refine ⟨.cons (.inr ⟨"api%5Fkey", "x", "y", by decide, ⟨"api_key", by decide, rfl⟩, rfl, rfl⟩)
    .nil, by decide, by decide, by decide⟩

end NexusPipe.Proof.Api.Middleware.Logging
