import Mathlib.Data.List.Basic

namespace NexusPipe.Library.Base64

def digit (n : Nat) : Char :=
  if n < 26 then Char.ofNat (n + 65)
  else if n < 52 then Char.ofNat (n + 71)
  else if n < 62 then Char.ofNat (n - 4)
  else if n = 62 then '+'
  else '/'

def value (c : Char) : Option Nat :=
  let n := c.toNat
  if 65 ≤ n ∧ n ≤ 90 then some (n - 65)
  else if 97 ≤ n ∧ n ≤ 122 then some (n - 71)
  else if 48 ≤ n ∧ n ≤ 57 then some (n + 4)
  else if c = '+' then some 62
  else if c = '/' then some 63
  else none

def encode : List UInt8 → List Char
  | [] => []
  | [a] => [digit (a.toNat / 4), digit (a.toNat % 4 * 16), '=', '=']
  | [a, b] =>
    [digit (a.toNat / 4), digit (a.toNat % 4 * 16 + b.toNat / 16), digit (b.toNat % 16 * 4), '=']
  | a :: b :: c :: rest =>
    digit (a.toNat / 4) :: digit (a.toNat % 4 * 16 + b.toNat / 16) ::
      digit (b.toNat % 16 * 4 + c.toNat / 64) :: digit (c.toNat % 64) :: encode rest

def firstByte (a b : Nat) : UInt8 := .ofNat (a * 4 + b / 16)
def secondByte (b c : Nat) : UInt8 := .ofNat (b % 16 * 16 + c / 4)
def thirdByte (c d : Nat) : UInt8 := .ofNat (c % 4 * 64 + d)

/-- Groups of four digits; only the last one may be padded, and the bits that its padding cuts off
are not looked at. -/
def decodeGroups : List Char → Option (List UInt8)
  | [] => some []
  | a :: b :: c :: d :: rest => do
    let a ← value a
    let b ← value b
    if d = '=' then
      if rest ≠ [] then none
      else if c = '=' then some [firstByte a b]
      else
        let c ← value c
        some [firstByte a b, secondByte b c]
    else
      let c ← value c
      let d ← value d
      let rest ← decodeGroups rest
      some (firstByte a b :: secondByte b c :: thirdByte c d :: rest)
  | _ => none

def decode (text : List Char) : Option (List UInt8) :=
  decodeGroups (text.filter fun c => c ≠ '\n' ∧ c ≠ '\r')

theorem value_digit (small : n < 64) : value (digit n) = some n := by
  have all : ∀ n < 64, value (digit n) = some n := by decide
  exact all n small

theorem digit_plain (small : n < 64) : digit n ≠ '=' ∧ digit n ≠ '\n' ∧ digit n ≠ '\r' := by
  have all : ∀ n < 64, digit n ≠ '=' ∧ digit n ≠ '\n' ∧ digit n ≠ '\r' := by decide
  exact all n small

section
variable (a b c : UInt8)

theorem firstByte_split (low : Nat) (small : low < 16) :
    firstByte (a.toNat / 4) (a.toNat % 4 * 16 + low) = a := by
  have whole : a.toNat / 4 * 4 + (a.toNat % 4 * 16 + low) / 16 = a.toNat := by omega
  rw [firstByte, whole, UInt8.ofNat_toNat]

theorem secondByte_split (high low : Nat) (small : low < 4) :
    secondByte (high * 16 + b.toNat / 16) (b.toNat % 16 * 4 + low) = b := by
  have bound := b.toNat_lt
  have whole : (high * 16 + b.toNat / 16) % 16 * 16 + (b.toNat % 16 * 4 + low) / 4 = b.toNat := by
    omega
  rw [secondByte, whole, UInt8.ofNat_toNat]

theorem thirdByte_split (high : Nat) : thirdByte (high * 4 + c.toNat / 64) (c.toNat % 64) = c := by
  have bound := c.toNat_lt
  have whole : (high * 4 + c.toNat / 64) % 4 * 64 + c.toNat % 64 = c.toNat := by omega
  rw [thirdByte, whole, UInt8.ofNat_toNat]

end

theorem decodeGroups_encode (bytes : List UInt8) : decodeGroups (encode bytes) = some bytes := by
  induction bytes using encode.induct with
  | case1 => rfl
  | case2 a =>
    have bound := a.toNat_lt
    have first := firstByte_split a 0 (by omega)
    rw [Nat.add_zero] at first
    simp only [encode, decodeGroups, value_digit (show a.toNat / 4 < 64 by omega),
      value_digit (show a.toNat % 4 * 16 < 64 by omega), Option.bind_eq_bind, Option.bind_some,
      ne_eq, not_true_eq_false, if_true, if_false, first]
  | case3 a b =>
    have boundA := a.toNat_lt
    have boundB := b.toNat_lt
    have third := digit_plain (show b.toNat % 16 * 4 < 64 by omega)
    have second := secondByte_split b (a.toNat % 4) 0 (by omega)
    rw [Nat.add_zero] at second
    simp only [encode, decodeGroups, value_digit (show a.toNat / 4 < 64 by omega),
      value_digit (show a.toNat % 4 * 16 + b.toNat / 16 < 64 by omega),
      value_digit (show b.toNat % 16 * 4 < 64 by omega), Option.bind_eq_bind, Option.bind_some,
      ne_eq, not_true_eq_false, if_true, if_false, third.1, second,
      firstByte_split a (b.toNat / 16) (by omega)]
  | case4 a b c rest ih =>
    have boundA := a.toNat_lt
    have boundB := b.toNat_lt
    have boundC := c.toNat_lt
    have fourth := digit_plain (show c.toNat % 64 < 64 by omega)
    simp only [encode, decodeGroups, value_digit (show a.toNat / 4 < 64 by omega),
      value_digit (show a.toNat % 4 * 16 + b.toNat / 16 < 64 by omega),
      value_digit (show b.toNat % 16 * 4 + c.toNat / 64 < 64 by omega),
      value_digit (show c.toNat % 64 < 64 by omega), Option.bind_eq_bind, Option.bind_some,
      if_false, fourth.1, ih, firstByte_split a (b.toNat / 16) (by omega),
      secondByte_split b (a.toNat % 4) (c.toNat / 64) (by omega), thirdByte_split c]

theorem encode_no_breaks (bytes : List UInt8) : ∀ c ∈ encode bytes, c ≠ '\n' ∧ c ≠ '\r' := by
  induction bytes using encode.induct with
  | case1 => simp [encode]
  | case2 a =>
    have bound := a.toNat_lt
    simp only [encode, List.forall_mem_cons]
    exact ⟨(digit_plain (by omega)).2, (digit_plain (by omega)).2, by decide, by decide, by simp⟩
  | case3 a b =>
    have boundA := a.toNat_lt
    have boundB := b.toNat_lt
    simp only [encode, List.forall_mem_cons]
    exact ⟨(digit_plain (by omega)).2, (digit_plain (by omega)).2, (digit_plain (by omega)).2,
      by decide, by simp⟩
  | case4 a b c rest ih =>
    have boundA := a.toNat_lt
    have boundB := b.toNat_lt
    have boundC := c.toNat_lt
    simp only [encode, List.forall_mem_cons]
    exact ⟨(digit_plain (by omega)).2, (digit_plain (by omega)).2, (digit_plain (by omega)).2,
      (digit_plain (by omega)).2, ih⟩

theorem decode_encode (bytes : List UInt8) : decode (encode bytes) = some bytes := by
  rw [decode, List.filter_eq_self.mpr, decodeGroups_encode]
  intro c member
  simpa using encode_no_breaks bytes c member

example : encode [77, 97] = ['T', 'W', 'E', '='] := by decide

end NexusPipe.Library.Base64
