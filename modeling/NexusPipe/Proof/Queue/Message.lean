import NexusPipe.Proof.Scheduler.Job
import NexusPipe.Queue.Message

namespace NexusPipe.Proof.Queue
open Library NexusPipe.Queue List

variable {headers : Headers}

section
variable {host : JsonHost}

def headerText : HeaderValue → String
  | .string s => s
  | _ => ""

def StringValued (headers : Headers) : Prop :=
  ∀ k v, headers.lookup k = some v → v = .string (headerText v)

def headerPairs (host : JsonHost) (headers : Headers) : List (String × String) :=
  (host.headerOrder headers).entries.map fun x => (x.1, headerText x.2)

theorem encodeEntries_strings (pairs : List (String × String)) :
    encodeEntries host (pairs.map fun p => (p.1, .string p.2)) =
      pairs.map fun p => (p.1, .ok (.string (Json.quote p.2))) := by
  induction pairs with
  | nil => rfl
  | cons p pairs ih => rw [map_cons, encodeEntries, ih, encodeValue, map_cons]

theorem collect_strings (pairs : List (String × String)) :
    collect (pairs.map fun p => (p.1, .ok (.string (Json.quote p.2)))) =
      .ok (pairs.map fun p => (Json.quote p.1, .string (Json.quote p.2))) := by
  induction pairs with
  | nil => rfl
  | cons p pairs ih =>
    rw [map_cons, collect, ih]
    rfl

theorem decodeHeaders_strings (headers : Headers) (pairs : List (String × String)) :
    decodeHeaders headers (pairs.map fun p => (Json.quote p.1, .string (Json.quote p.2))) =
      (pairs.foldl (fun headers p => headers.insert p.1 (.string p.2)) headers, none) := by
  induction pairs generalizing headers with
  | nil => rfl
  | cons p pairs ih =>
    rw [map_cons, decodeHeaders, Json.unquote_quote, decodeValue, Json.unquote_quote, ih]
    rfl

theorem sortByKey_map {α β : Type} (f : String × α → String × β) (keys : ∀ p, (f p).1 = p.1)
    (pairs : List (String × α)) : sortByKey (pairs.map f) = (sortByKey pairs).map f := by
  unfold sortByKey
  refine (map_mergeSort fun a _ b _ => ?_).symm
  rw [keys, keys]

theorem entries_eq_pairs (strings : StringValued headers) : (host.headerOrder headers).entries =
      (headerPairs host headers).map fun p => ⟨p.1, .string p.2⟩ := by
  rw [headerPairs, map_map]
  refine ((map_congr_left fun x member => ?_).trans (map_id _)).symm
  obtain ⟨k, v⟩ := x
  have text := strings k v ((host.headerOrder headers).mem_entries.mp member)
  simp only [Function.comp_apply, ← text, id_eq]

def sortedRanging (host : JsonHost) {headers : Headers} (strings : StringValued headers) :
    GoMap.Ranging headers where
  entries := (sortByKey (headerPairs host headers)).map fun p => ⟨p.1, .string p.2⟩
  complete := by
    rw [← (host.headerOrder headers).complete, Multiset.coe_eq_coe, entries_eq_pairs strings]
    exact (List.mergeSort_perm _ _).map _

theorem foldl_sorted (strings : StringValued headers) : (sortByKey (headerPairs host headers)).foldl
      (fun headers p => headers.insert p.1 (.string p.2)) (∅ : Headers) = headers := by
  refine Finmap.ext_lookup fun k => ?_
  have merged := (sortedRanging host strings).lookup_merge ∅ k
  rw [sortedRanging, foldl_map, Finmap.lookup_empty, Option.or_none] at merged
  exact merged

theorem decodeHeaders_encodeHeaders (host : JsonHost) (strings : StringValued headers) :
    ∃ members, encodeHeaders host headers = .ok (.object members) ∧
      decodeHeaders ∅ members = (headers, none) ∧
      ∀ depth, Json.Printable (depth + 2) (.object members) := by
  refine ⟨(sortByKey (headerPairs host headers)).map fun p =>
    (Json.quote p.1, .string (Json.quote p.2)), ?_, ?_, ?_⟩
  · have entries : (host.headerOrder headers).entries.map (fun x => (x.1, x.2)) =
        (headerPairs host headers).map fun p => (p.1, .string p.2) := by
      rw [entries_eq_pairs strings, map_map]
      rfl
    have sorted := sortByKey_map (β := Except Text Json)
      (fun p : String × String => (p.1, .ok (.string (Json.quote p.2)))) (fun _ => rfl)
      (headerPairs host headers)
    rw [encodeHeaders, entries, encodeEntries_strings, sorted, collect_strings]
    rfl
  · rw [decodeHeaders_strings, foldl_sorted strings]
  · intro depth
    refine .object (fun m member => ?_) fun m member => ?_
    all_goals obtain ⟨p, -, rfl⟩ := mem_map.mp member
    · exact Json.scans_quote p.1
    · exact .string (Json.scans_quote p.2)

end
section
variable {host : JsonHost} {value before : Envelope}

variable {set : Envelope → String → Envelope} {get : Envelope → String}

theorem stringField_copies (blank : set before "" = before) :
    Json.Copies value (stringField name type omitempty get set) before (set before (get value)) := by
  by_cases omitted : omitempty ∧ get value = ""
  · refine .omitted ?_ ?_
    · simp only [stringField, omitted, and_self, if_true]
    · rw [omitted.2, blank]
  · refine .decoded (.string (Json.quote (get value))) ?_ ?_
    · simp only [stringField, omitted, if_false]
    · simp only [stringField, Json.unquote_quote]

theorem intField_copies {get : Envelope → Int64} {set : Envelope → Int64 → Envelope}
    (blank : set before 0 = before) :
    Json.Copies value (intField name get set) before (set before (get value)) := by
  by_cases omitted : get value = 0
  · refine .omitted ?_ ?_
    · simp only [intField, omitted, if_true]
    · rw [omitted, blank]
  · refine .decoded (.number (Json.decimal (get value).toInt)) ?_ ?_
    · simp only [intField, omitted, if_false]
    · have range : -2 ^ 63 ≤ (get value).toInt ∧ (get value).toInt < 2 ^ 63 :=
        ⟨(get value).le_toInt, (get value).toInt_lt⟩
      simp only [intField, Json.intValue_decimal, range, and_self, if_true, Int64.ofInt_toInt]

def TimeRoundTrips (host : JsonHost) (t : Time) : Prop :=
  ∃ raw, host.formatTime t = .ok raw ∧ Json.Scans raw ∧ host.parseTime raw = .ok t

theorem timestampField_copies (times : TimeRoundTrips host value.Timestamp) :
    Json.Copies value (timestampField host) before { before with Timestamp := value.Timestamp } := by
  obtain ⟨raw, formatted, -, parsed⟩ := times
  refine .decoded (.string raw) ?_ ?_
  · simp only [timestampField, formatted]
    rfl
  · simp only [timestampField, parsed]

theorem payloadField_copies (payload : value.Payload = some bytes) :
    Json.Copies value (payloadField host) before { before with Payload := value.Payload } := by
  refine .decoded (.string (Json.quote (String.ofList (Base64.encode bytes)))) ?_ ?_
  · simp only [payloadField, payload]
  · simp only [payloadField, Json.unquote_quote, String.toList_ofList, Base64.decode_encode, payload]

theorem headersField_copies (present : value.Headers = some headers) (nonempty : headers.len ≠ 0)
    (strings : StringValued headers) (blank : before.Headers = none) :
    Json.Copies value (headersField host) before { before with Headers := value.Headers } := by
  obtain ⟨members, encoded, decoded, -⟩ := decodeHeaders_encodeHeaders host strings
  refine .decoded (.object members) ?_ ?_
  · simp only [headersField, present, nonempty, if_false, encoded]
    rfl
  · simp only [headersField, blank, Option.getD_none, decoded, problem, present]

/-! What the fields write is printable. -/

theorem stringField_printable
    (written : (stringField name type omitempty get set).write value = .ok (some j)) :
    Json.Printable (depth + 1) j := by
  simp only [stringField] at written
  split_ifs at written <;> cases written
  exact .string (Json.scans_quote _)

theorem intField_printable {get : Envelope → Int64} {set : Envelope → Int64 → Envelope}
    (written : (intField name get set).write value = .ok (some j)) :
    Json.Printable (depth + 1) j := by
  simp only [intField] at written
  split_ifs at written <;> cases written
  exact .number (Json.scansNumber_decimal _)

theorem timestampField_printable (times : TimeRoundTrips host value.Timestamp)
    (written : (timestampField host).write value = .ok (some j)) : Json.Printable (depth + 1) j := by
  obtain ⟨raw, formatted, scans, -⟩ := times
  simp only [timestampField, formatted] at written
  cases written
  exact .string scans

theorem payloadField_printable (written : (payloadField host).write value = .ok (some j)) :
    Json.Printable (depth + 1) j := by
  simp only [payloadField] at written
  split at written <;> cases written
  · exact .null
  · exact .string (Json.scans_quote _)

theorem headersField_printable (present : value.Headers = some headers)
    (strings : StringValued headers) (written : (headersField host).write value = .ok (some j)) :
    Json.Printable (depth + 2) j := by
  obtain ⟨members, encoded, -, printable⟩ := decodeHeaders_encodeHeaders host strings
  simp only [headersField, present, encoded] at written
  split_ifs at written <;> cases written
  exact printable depth

end

section
variable {e : Envelope}

theorem setHeaders_strings (strings : ∀ headers, e.Headers = some headers → StringValued headers) :
    ∃ headers, e.setHeaders.Headers = some headers ∧ headers.len ≠ 0 ∧ StringValued headers := by
  refine ⟨_, rfl, ?_, ?_⟩
  · refine Finset.card_ne_zero_of_mem (a := "x-message-version") ?_
    exact Finmap.mem_keys.mpr (Finmap.mem_insert.mpr (.inl rfl))
  · intro k v found
    rw [GoMap.lookup_insert_eq, GoMap.lookup_insert_eq] at found
    split_ifs at found
    · cases found
      rfl
    · cases found
      rfl
    · cases present : e.Headers with
      | none => simp [present] at found
      | some headers => exact strings headers present k v (by simpa [present] using found)

variable {value : Envelope}

theorem envelope_copies (present : value.Headers = some headers) (nonempty : headers.len ≠ 0)
    (strings : StringValued headers) (payload : value.Payload = some bytes)
    (times : TimeRoundTrips host value.Timestamp) :
    Json.CopiesAll value (envelopeFields host) {} value :=
  .cons (stringField_copies rfl) <| .cons (stringField_copies rfl) <|
  .cons (stringField_copies rfl) <| .cons (stringField_copies rfl) <|
  .cons (timestampField_copies times) <| .cons (headersField_copies present nonempty strings rfl) <|
  .cons (payloadField_copies payload) <| .cons (stringField_copies rfl) <|
  .cons (stringField_copies rfl) <| .cons (stringField_copies rfl) <|
  .cons (stringField_copies rfl) <| .cons (intField_copies rfl) <|
  .cons (intField_copies rfl) <| .cons (intField_copies rfl) <| .nil _

theorem envelope_printable (present : value.Headers = some headers) (strings : StringValued headers)
    (times : TimeRoundTrips host value.Timestamp)
    (encoded : Json.encodeFields value (envelopeFields host) = .ok members) :
    Json.Printable Json.maxDepth (.object members) := by
  have written : ∀ f ∈ envelopeFields host, ∀ j, f.write value = .ok (some j) →
      Json.Printable 10000 j := by
    simp only [envelopeFields, forall_mem_cons]
    exact ⟨fun _ => stringField_printable, fun _ => stringField_printable,
      fun _ => stringField_printable, fun _ => stringField_printable,
      fun _ => timestampField_printable times, fun _ => headersField_printable present strings,
      fun _ => payloadField_printable, fun _ => stringField_printable,
      fun _ => stringField_printable, fun _ => stringField_printable,
      fun _ => stringField_printable, fun _ => intField_printable, fun _ => intField_printable,
      fun _ => intField_printable, by simp⟩
  have all := Json.encodeFields_printable written encoded
  exact .object (fun m member => (all m member).1) fun m member => (all m member).2

theorem envelopeFields_nodup : ((envelopeFields host).map (·.name)).Nodup := by
  simp only [envelopeFields, stringField, intField, timestampField, headersField, payloadField,
    map_cons, map_nil]
  decide

theorem unmarshal_marshal (typed : e.MessageType ≠ "") (payload : e.Payload ≠ none)
    (strings : ∀ headers, e.Headers = some headers → StringValued headers)
    (times : TimeRoundTrips host e.Timestamp) : ∃ data, (e.marshal host).2 = .ok data ∧
      ({} : Envelope).unmarshal host data = (e.setHeaders, none) := by
  obtain ⟨bytes, payload⟩ := Option.ne_none_iff_exists'.mp payload
  obtain ⟨headers, present, nonempty, strings⟩ := setHeaders_strings strings
  have copies : Json.CopiesAll e.setHeaders (envelopeFields host) {} e.setHeaders :=
    envelope_copies present nonempty strings payload times
  obtain ⟨members, encoded, decoded⟩ :=
    Json.decode_encodeFields envelopeFields_nodup (fun _ member => member) copies
  have parsed := Json.parse_render (envelope_printable present strings times encoded)
  have valid : e.validate = none := by simp only [Envelope.validate, typed, if_false, payload]
  have valid' : e.setHeaders.validate = none := valid
  refine ⟨Json.utf8 (Json.render (.object members)), ?_, ?_⟩
  · simp only [Envelope.marshal, valid, encoded]
  · have bytes : Json.utf8 (Json.render (.object members)) ≠ [] := by
      intro empty
      rw [empty, Json.parse, Json.runes] at parsed
      cases parsed
    have read : ({} : Envelope).decode host (Json.utf8 (Json.render (.object members))) =
        (e.setHeaders, none) := by
      simp only [Envelope.decode, parsed, Json.decodeMembers, decoded, Option.or_none]
    simp only [Envelope.unmarshal, bytes, if_false, read]
    exact congrArg _ valid'

theorem deserialize_marshal (typed : e.MessageType ≠ "") (payload : e.Payload ≠ none)
    (strings : ∀ headers, e.Headers = some headers → StringValued headers)
    (times : TimeRoundTrips host e.Timestamp) :
    ∃ data, (e.marshal host).2 = .ok data ∧
      deserialize host data = .ok { e with
        Headers := some (((e.Headers.getD ∅).insert "x-message-type" (.string e.MessageType)).insert
          "x-message-version" (.string e.Version)) } := by
  obtain ⟨data, marshalled, opened⟩ := unmarshal_marshal typed payload strings times
  refine ⟨data, marshalled, ?_⟩
  rw [deserialize, opened]
  rfl

end

def sampleHost : JsonHost where
  syntaxError _ := .str "invalid character"
  corruptInput _ := .str "illegal base64 data"
  formatTime _ := .ok (Json.quote "0001-01-01T00:00:00Z")
  parseTime _ := .ok .zero
  formatFloat _ := ['0']
  headerOrder := GoMap.ascending Scheduler.textRank Scheduler.textRank_injective

def sampleEnvelope : Envelope where
  ID := "m-1"
  MessageType := "event"
  Source := "crawler"
  Headers := some ((∅ : Headers).insert "tenant" (.string "acme"))
  Payload := some [0xff, 0, 0x22]
  RetryCount := -3

theorem sampleHost_times : TimeRoundTrips sampleHost .zero :=
  ⟨_, rfl, Json.scans_quote _, rfl⟩

theorem deserialize_marshal_sample :
    ∃ data, (sampleEnvelope.marshal sampleHost).2 = .ok data ∧
      deserialize sampleHost data = .ok { sampleEnvelope with
        Headers := some (((∅ : Headers).insert "tenant" (.string "acme")
          |>.insert "x-message-type" (.string "event")).insert "x-message-version" (.string "")) } := by
  refine deserialize_marshal (by decide) (by decide) ?_ sampleHost_times
  rintro headers ⟨rfl⟩ k v found
  rw [GoMap.lookup_insert_eq] at found
  split_ifs at found
  · cases found
    rfl
  · simp at found

end NexusPipe.Proof.Queue
