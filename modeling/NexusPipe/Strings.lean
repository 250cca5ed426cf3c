import NexusPipe.Go

/-! # The package `strings`

A Go string is a sequence of bytes. In the modules on requests and API keys a `String` has one
character for each byte. Cron expressions are valid UTF-8, one character for each code point: what
they use of this module is the same for both. -/

namespace NexusPipe.Strings

def hasPrefix (s head : String) : Bool := head.toList.isPrefixOf s.toList

def hasSuffix (s tail : String) : Bool := tail.toList.isSuffixOf s.toList

def contains (s sub : String) : Bool := s.toList.tails.any sub.toList.isPrefixOf

def replaceAll (s : String) (old : Char) (new : String) : String :=
  String.ofList (s.toList.flatMap fun c => if c = old then new.toList else [c])

def trimPrefix (s head : String) : String :=
  if hasPrefix s head then String.ofList (s.toList.drop head.length) else s

def splitN2 (s : String) (sep : Char) : List String :=
  if sep ∈ s.toList then
    [String.ofList (s.toList.takeWhile (· ≠ sep)),
      String.ofList ((s.toList.dropWhile (· ≠ sep)).drop 1)]
  else [s]

def split (s : String) (sep : Char) : List String := (s.toList.splitOn sep).map String.ofList

def join (items : List String) (sep : String) : String :=
  String.ofList (sep.toList.intercalate (items.map String.toList))

def lowerChar (c : Char) : Char :=
  if 65 ≤ c.toNat ∧ c.toNat ≤ 90 then Char.ofNat (c.toNat + 32) else c

def lowerASCII (s : String) : String := String.ofList (s.toList.map lowerChar)

def toLower (unicode : String → String) (s : String) : String :=
  if s.toList.all (·.toNat < 128) then lowerASCII s else unicode s

def sliceTo (s : String) (high : Nat) : Except Fault String :=
  if high ≤ s.length then .ok (String.ofList (s.toList.take high))
  else .error (.panic "slice bounds out of range")

def sliceFrom (s : String) (low : Nat) : Except Fault String :=
  if low ≤ s.length then .ok (String.ofList (s.toList.drop low))
  else .error (.panic "slice bounds out of range")

def hexEncode (bytes : List UInt8) : String :=
  String.ofList (bytes.flatMap fun b => [Nat.digitChar (b.toNat / 16), Nat.digitChar (b.toNat % 16)])

variable {s head : String}

theorem hasPrefix_iff : hasPrefix s head ↔ head.toList <+: s.toList :=
  List.isPrefixOf_iff_prefix

theorem hasPrefix_iff_append : hasPrefix s head ↔ ∃ rest, s = head ++ rest := by
  rw [hasPrefix_iff]
  constructor
  · rintro ⟨rest, shape⟩
    refine ⟨String.ofList rest, String.toList_inj.mp ?_⟩
    rw [String.toList_append, String.toList_ofList, shape]
  · rintro ⟨rest, rfl⟩
    rw [String.toList_append]
    exact List.prefix_append _ _

theorem hasSuffix_iff {tail : String} : hasSuffix s tail ↔ tail.toList <:+ s.toList :=
  List.isSuffixOf_iff_suffix

theorem contains_iff {sub : String} : contains s sub ↔ sub.toList <:+: s.toList := by
  simp only [contains, List.any_eq_true, List.mem_tails, List.isPrefixOf_iff_prefix,
    List.infix_iff_prefix_suffix, and_comm]

theorem trimPrefix_append (head rest : String) : trimPrefix (head ++ rest) head = rest := by
  have starts : hasPrefix (head ++ rest) head := by simp [hasPrefix_iff]
  rw [trimPrefix, if_pos starts, String.toList_append, ← String.length_toList,
    List.drop_left, String.ofList_toList]

theorem length_hexEncode (bytes : List UInt8) : (hexEncode bytes).length = 2 * bytes.length := by
  rw [hexEncode, String.length_ofList]
  induction bytes with
  | nil => rfl
  | cons b bytes ih =>
    rw [List.flatMap_cons, List.length_append, ih, List.length_cons, List.length_cons,
      List.length_cons, List.length_nil]
    omega

theorem sliceTo_eq {high : Nat} (fits : high ≤ s.length) :
    sliceTo s high = .ok (String.ofList (s.toList.take high)) := if_pos fits

theorem sliceFrom_eq {low : Nat} (fits : low ≤ s.length) :
    sliceFrom s low = .ok (String.ofList (s.toList.drop low)) := if_pos fits

end NexusPipe.Strings
