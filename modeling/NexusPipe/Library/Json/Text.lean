import Mathlib.Data.List.Basic

namespace NexusPipe.Library
open List

/-- A JSON text. Numbers and strings are kept as they are written, strings without the quotes. -/
inductive Json
  | null
  | bool (b : Bool)
  | number (raw : List Char)
  | string (raw : List Char)
  | array (items : List Json)
  | object (members : List (List Char × Json))

namespace Json

/-! ## Bytes -/

def utf8 (text : List Char) : List UInt8 := text.flatMap String.utf8EncodeChar

/-- Bytes that are not valid UTF-8 read as the replacement character. -/
def runes (bytes : List UInt8) : List Char :=
  match bytes with
  | [] => []
  | byte :: rest =>
    match (byte :: rest).toByteArray.utf8DecodeChar? 0 with
    | some c => c :: runes ((byte :: rest).drop c.utf8Size)
    | none => '�' :: runes rest
termination_by bytes.length
decreasing_by
  · have := c.utf8Size_pos
    simp only [List.length_drop, List.length_cons]
    omega
  · simp

theorem runes_encode_append (c : Char) (rest : List UInt8) :
    runes (String.utf8EncodeChar c ++ rest) = c :: runes rest := by
  have decoded : (String.utf8EncodeChar c ++ rest).toByteArray.utf8DecodeChar? 0 = some c := by
    rw [toByteArray_append]
    exact ByteArray.utf8DecodeChar?_utf8EncodeChar_append
  have dropped : (String.utf8EncodeChar c ++ rest).drop c.utf8Size = rest := by
    rw [← String.length_utf8EncodeChar, drop_left]
  obtain ⟨byte, more, split⟩ := exists_cons_of_ne_nil (String.utf8EncodeChar_ne_nil (c := c))
  rw [split, cons_append] at decoded dropped ⊢
  rw [runes, decoded]
  simp only [dropped]

theorem runes_utf8 (text : List Char) : runes (utf8 text) = text := by
  induction text with
  | nil => rw [utf8, flatMap_nil, runes]
  | cons c text ih => rw [utf8, flatMap_cons, runes_encode_append, ← utf8, ih]

/-! ## Strings -/

def hexDigit (n : Nat) : Char := if n < 10 then Char.ofNat (n + 48) else Char.ofNat (n + 87)

def hexValue (c : Char) : Option Nat :=
  let n := c.toNat
  if 48 ≤ n ∧ n ≤ 57 then some (n - 48)
  else if 97 ≤ n ∧ n ≤ 102 then some (n - 87)
  else if 65 ≤ n ∧ n ≤ 70 then some (n - 55)
  else none

def hex4 (a b c d : Char) : Option Nat := do
  let a ← hexValue a
  let b ← hexValue b
  let c ← hexValue c
  let d ← hexValue d
  some (a * 4096 + b * 256 + c * 16 + d)

def shortEscape (c : Char) : Option Char :=
  if c = '"' ∨ c = '\\' ∨ c = '/' then some c
  else if c = 'b' then some (Char.ofNat 8)
  else if c = 'f' then some (Char.ofNat 12)
  else if c = 'n' then some '\n'
  else if c = 'r' then some '\r'
  else if c = 't' then some '\t'
  else none

def consRaw (piece : List Char) : List Char × List Char → List Char × List Char
  | (raw, rest) => (piece ++ raw, rest)

def scanString : List Char → Option (List Char × List Char)
  | [] => none
  | c :: input =>
    if c = '"' then some ([], input)
    else if c = '\\' then
      match input with
      | [] => none
      | e :: input =>
        if e = 'u' then
          match input with
          | h₁ :: h₂ :: h₃ :: h₄ :: input =>
            if (hex4 h₁ h₂ h₃ h₄).isSome then
              (scanString input).map (consRaw [c, e, h₁, h₂, h₃, h₄])
            else none
          | _ => none
        else if (shortEscape e).isSome then (scanString input).map (consRaw [c, e])
        else none
    else if c.toNat < 32 then none
    else (scanString input).map (consRaw [c])

def isSurrogate (n : Nat) : Bool := 0xd800 ≤ n ∧ n < 0xe000

def surrogatePair (high low : Nat) : Option Char :=
  if (0xd800 ≤ high ∧ high < 0xdc00) ∧ 0xdc00 ≤ low ∧ low < 0xe000 then
    some (Char.ofNat ((high - 0xd800) * 1024 + (low - 0xdc00) + 0x10000))
  else none

def unicodeEscape : List Char → Option Nat
  | b :: u :: h₁ :: h₂ :: h₃ :: h₄ :: _ => if b = '\\' ∧ u = 'u' then hex4 h₁ h₂ h₃ h₄ else none
  | _ => none

def unquoteFrom : Nat → List Char → List Char
  | _, [] => []
  | skip + 1, _ :: raw => unquoteFrom skip raw
  | 0, c :: raw =>
    if c = '\\' then
      match unicodeEscape (c :: raw) with
      | some n =>
        if isSurrogate n then
          match (unicodeEscape (raw.drop 5)).bind (surrogatePair n) with
          | some combined => combined :: unquoteFrom 11 raw
          | none => '�' :: unquoteFrom 5 raw
        else Char.ofNat n :: unquoteFrom 5 raw
      | none => ((raw.head?.bind shortEscape).getD '�') :: unquoteFrom 1 raw
    else c :: unquoteFrom 0 raw

def unquote (raw : List Char) : String := String.ofList (unquoteFrom 0 raw)

def escape (c : Char) : List Char :=
  let n := c.toNat
  if c = '"' then ['\\', '"']
  else if c = '\\' then ['\\', '\\']
  else if n = 8 then ['\\', 'b']
  else if n = 12 then ['\\', 'f']
  else if c = '\n' then ['\\', 'n']
  else if c = '\r' then ['\\', 'r']
  else if c = '\t' then ['\\', 't']
  else if n < 32 ∨ c = '<' ∨ c = '>' ∨ c = '&' ∨ n = 0x2028 ∨ n = 0x2029 then
    ['\\', 'u', hexDigit (n / 4096), hexDigit (n / 256 % 16), hexDigit (n / 16 % 16),
      hexDigit (n % 16)]
  else [c]

def quote (s : String) : List Char := s.toList.flatMap escape

variable {n : Nat}

theorem hexValue_hexDigit (small : n < 16) : hexValue (hexDigit n) = some n := by
  have all : ∀ n < 16, hexValue (hexDigit n) = some n := by decide
  exact all n small

theorem hex4_digits (small : n < 65536) :
    hex4 (hexDigit (n / 4096)) (hexDigit (n / 256 % 16)) (hexDigit (n / 16 % 16))
      (hexDigit (n % 16)) = some n := by
  simp only [hex4, hexValue_hexDigit (show n / 4096 < 16 by omega),
    hexValue_hexDigit (show n / 256 % 16 < 16 by omega),
    hexValue_hexDigit (show n / 16 % 16 < 16 by omega),
    hexValue_hexDigit (show n % 16 < 16 by omega), Option.bind_eq_bind, Option.bind_some,
    Option.some.injEq]
  omega

theorem escape_cases (c : Char) : (∃ e, escape c = ['\\', e] ∧ e ≠ 'u' ∧ shortEscape e = some c) ∨
      (∃ h₁ h₂ h₃ h₄, escape c = ['\\', 'u', h₁, h₂, h₃, h₄] ∧ hex4 h₁ h₂ h₃ h₄ = some c.toNat ∧
        isSurrogate c.toNat = false) ∨ (escape c = [c] ∧ c ≠ '"' ∧ c ≠ '\\' ∧ ¬ c.toNat < 32) := by
  unfold escape
  dsimp only
  by_cases quote : c = '"'
  · rw [if_pos quote]
    exact .inl ⟨'"', rfl, by decide, by rw [quote]; decide⟩
  rw [if_neg quote]
  by_cases backslash : c = '\\'
  · rw [if_pos backslash]
    exact .inl ⟨'\\', rfl, by decide, by rw [backslash]; decide⟩
  rw [if_neg backslash]
  by_cases back : c.toNat = 8
  · rw [if_pos back]
    exact .inl ⟨'b', rfl, by decide, by rw [← Char.ofNat_toNat c, back]; decide⟩
  rw [if_neg back]
  by_cases feed : c.toNat = 12
  · rw [if_pos feed]
    exact .inl ⟨'f', rfl, by decide, by rw [← Char.ofNat_toNat c, feed]; decide⟩
  rw [if_neg feed]
  by_cases newline : c = '\n'
  · rw [if_pos newline]
    exact .inl ⟨'n', rfl, by decide, by rw [newline]; decide⟩
  rw [if_neg newline]
  by_cases carriage : c = '\r'
  · rw [if_pos carriage]
    exact .inl ⟨'r', rfl, by decide, by rw [carriage]; decide⟩
  rw [if_neg carriage]
  by_cases tab : c = '\t'
  · rw [if_pos tab]
    exact .inl ⟨'t', rfl, by decide, by rw [tab]; decide⟩
  rw [if_neg tab]
  by_cases coded : c.toNat < 32 ∨ c = '<' ∨ c = '>' ∨ c = '&' ∨ c.toNat = 0x2028 ∨ c.toNat = 0x2029
  · rw [if_pos coded]
    have small : c.toNat < 0xd800 := by
      rcases coded with low | rfl | rfl | rfl | line | paragraph
      · omega
      · decide
      · decide
      · decide
      · omega
      · omega
    refine .inr (.inl ⟨_, _, _, _, rfl, hex4_digits (by omega), ?_⟩)
    simp only [isSurrogate, decide_eq_false_iff_not]
    omega
  · rw [if_neg coded]
    exact .inr (.inr ⟨rfl, quote, backslash, fun low => coded (.inl low)⟩)

theorem scanString_escape (c : Char) (input : List Char) :
    scanString (escape c ++ input) = (scanString input).map (consRaw (escape c)) := by
  rcases escape_cases c with ⟨e, eq, plain, short⟩ | ⟨h₁, h₂, h₃, h₄, eq, hex, -⟩ |
    ⟨eq, noQuote, noBackslash, high⟩
  · rw [eq, scanString.eq_def]
    simp [plain, short]
  · rw [eq, scanString.eq_def]
    simp [hex]
  · rw [eq, scanString.eq_def]
    simp [noQuote, noBackslash, high]

def Scans (raw : List Char) : Prop :=
  ∀ rest, scanString (raw ++ '"' :: rest) = some (raw, rest)

theorem scans_quote (s : String) : Scans (quote s) := by
  intro rest
  unfold quote
  induction s.toList with
  | nil =>
    rw [scanString.eq_def]
    simp
  | cons c text ih =>
    rw [flatMap_cons, append_assoc, scanString_escape, ih]
    rfl

theorem unquoteFrom_escape (c : Char) (raw : List Char) :
    unquoteFrom 0 (escape c ++ raw) = c :: unquoteFrom 0 raw := by
  rcases escape_cases c with ⟨e, eq, plain, short⟩ | ⟨h₁, h₂, h₃, h₄, eq, hex, inPlane⟩ |
    ⟨eq, noQuote, noBackslash, high⟩
  · have none : unicodeEscape ('\\' :: e :: raw) = none := by
      rcases raw with _ | ⟨a, _ | ⟨b, _ | ⟨c, _ | ⟨d, raw⟩⟩⟩⟩ <;> simp [unicodeEscape, plain]
    rw [eq]
    simp [unquoteFrom, none, short]
  · rw [eq]
    simp [unquoteFrom, unicodeEscape, hex, inPlane, Char.ofNat_toNat]
  · rw [eq]
    simp [unquoteFrom, noBackslash]

theorem unquote_quote (s : String) : unquote (quote s) = s := by
  have text : unquoteFrom 0 (s.toList.flatMap escape) = s.toList := by
    induction s.toList with
    | nil => rfl
    | cons c text ih => rw [flatMap_cons, unquoteFrom_escape, ih]
  rw [unquote, quote, text, String.ofList_toList]

/-! ## Numbers -/

def scanDigits : List Char → List Char × List Char
  | [] => ([], [])
  | c :: input => if c.isDigit then consRaw [c] (scanDigits input) else ([], c :: input)

def scanSign : List Char → List Char × List Char
  | [] => ([], [])
  | c :: input => if c = '-' then ([c], input) else ([], c :: input)

def scanFraction : List Char → Option (List Char × List Char)
  | [] => some ([], [])
  | c :: input =>
    if c = '.' then
      if (scanDigits input).1 = [] then none else some (consRaw [c] (scanDigits input))
    else some ([], c :: input)

def scanExponent : List Char → Option (List Char × List Char)
  | [] => some ([], [])
  | e :: input =>
    if e = 'e' ∨ e = 'E' then
      let (sign, input) :=
        match input with
        | [] => ([], [])
        | c :: input => if c = '+' ∨ c = '-' then ([c], input) else ([], c :: input)
      if (scanDigits input).1 = [] then none else some (consRaw (e :: sign) (scanDigits input))
    else some ([], e :: input)

def scanNumber (input : List Char) : Option (List Char × List Char) := do
  let (sign, input) := scanSign input
  let (whole, input) := scanDigits input
  if whole = [] ∨ (whole.head? = some '0' ∧ 1 < whole.length) then none
  else
    let (fraction, input) ← scanFraction input
    let (exponent, input) ← scanExponent input
    some (sign ++ whole ++ fraction ++ exponent, input)

def Delimited (rest : List Char) : Prop := ∀ c ∈ rest.head?, c = ',' ∨ c = ']' ∨ c = '\x7d'

def ScansNumber (raw : List Char) : Prop :=
  ∀ rest, Delimited rest → scanNumber (raw ++ rest) = some (raw, rest)

def decimal : Int → List Char
  | .ofNat n => Nat.toDigits 10 n
  | .negSucc n => '-' :: Nat.toDigits 10 (n + 1)

variable {rest : List Char}

theorem scanDigits_append (all : ∀ c ∈ digits, c.isDigit)
    (stop : ∀ c ∈ rest.head?, c.isDigit = false) :
    scanDigits (digits ++ rest) = (digits, rest) := by
  induction digits with
  | nil =>
    cases rest with
    | nil => rfl
    | cons c rest => simp [scanDigits, stop c rfl]
  | cons c digits ih =>
    rw [forall_mem_cons] at all
    simp [scanDigits, all.1, ih all.2, consRaw]

theorem toDigits_head (positive : 0 < n) : (Nat.toDigits 10 n).head? ≠ some '0' := by
  induction n using Nat.strongRecOn with
  | _ n ih =>
    by_cases small : n < 10
    · have all : ∀ n < 10, 0 < n → (Nat.toDigits 10 n).head? ≠ some '0' := by decide
      exact all n small positive
    · rw [Nat.toDigits_eq_if (by decide), if_neg small]
      have lead := ih (n / 10) (by omega) (by omega)
      obtain ⟨c, digits, split⟩ :=
        exists_cons_of_ne_nil (Nat.toDigits_ne_nil (n := n / 10) (b := 10))
      rw [split] at lead ⊢
      exact lead

theorem toDigits_lead (n : Nat) : ¬ (Nat.toDigits 10 n = [] ∨
      ((Nat.toDigits 10 n).head? = some '0' ∧ 1 < (Nat.toDigits 10 n).length)) := by
  rintro (empty | ⟨zero, long⟩)
  · exact Nat.toDigits_ne_nil empty
  · rcases Nat.eq_zero_or_pos n with rfl | positive
    · simp at long
    · exact toDigits_head positive zero

theorem toDigits_isDigit (n : Nat) : ∀ c ∈ Nat.toDigits 10 n, c.isDigit := fun _ member =>
  Nat.isDigit_of_mem_toDigits (by decide) (by decide) member

theorem scanSign_toDigits (n : Nat) (rest : List Char) :
    scanSign (Nat.toDigits 10 n ++ rest) = ([], Nat.toDigits 10 n ++ rest) := by
  obtain ⟨c, digits, split⟩ := exists_cons_of_ne_nil (Nat.toDigits_ne_nil (n := n) (b := 10))
  have digit : c.isDigit := toDigits_isDigit n c (by rw [split]; exact mem_cons_self)
  have plain : c ≠ '-' := by
    rintro rfl
    exact absurd digit (by decide)
  simp [split, scanSign, plain]

variable {input : List Char}

theorem scanNumber_digits (signed : scanSign input = (sign, Nat.toDigits 10 n ++ rest))
    (delimited : Delimited rest) : scanNumber input = some (sign ++ Nat.toDigits 10 n, rest) := by
  have stop : ∀ c ∈ rest.head?, c.isDigit = false ∧ c ≠ '.' ∧ c ≠ 'e' ∧ c ≠ 'E' := by
    intro c head
    rcases delimited c head with rfl | rfl | rfl <;> decide
  have digits := scanDigits_append (toDigits_isDigit n) fun c head => (stop c head).1
  have fraction : scanFraction rest = some ([], rest) := by
    cases rest with
    | nil => rfl
    | cons c rest => simp [scanFraction, (stop c rfl).2.1]
  have exponent : scanExponent rest = some ([], rest) := by
    cases rest with
    | nil => rfl
    | cons c rest => simp [scanExponent, (stop c rfl).2.2]
  simp only [scanNumber, signed, digits, toDigits_lead n, if_false, fraction, exponent,
    Option.bind_eq_bind, Option.bind_some, append_nil]

theorem scansNumber_decimal (i : Int) : ScansNumber (decimal i) := by
  intro rest delimited
  cases i with
  | ofNat n => exact scanNumber_digits (scanSign_toDigits n rest) delimited
  | negSucc n =>
    have signed : scanSign (decimal (.negSucc n) ++ rest) =
        (['-'], Nat.toDigits 10 (n + 1) ++ rest) := by simp [decimal, scanSign]
    exact scanNumber_digits signed delimited

def intValue (raw : List Char) : Option Int :=
  let (sign, digits) := scanSign raw
  if digits ≠ [] ∧ digits.all Char.isDigit then
    let n := Nat.ofDigitChars 10 digits 0
    some (if sign = [] then n else -n)
  else none

theorem intValue_decimal (i : Int) : intValue (decimal i) = some i := by
  cases i with
  | ofNat n =>
    have signed := scanSign_toDigits n []
    have digits := all_eq_true.mpr (toDigits_isDigit n)
    rw [append_nil] at signed
    simp [intValue, decimal, signed, digits, Nat.toDigits_ne_nil,
      Nat.ofDigitChars_toDigits (show 1 < 10 by decide) (by decide)]
  | negSucc n =>
    have digits := all_eq_true.mpr (toDigits_isDigit (n + 1))
    simp [intValue, decimal, scanSign, digits, Nat.toDigits_ne_nil,
      Nat.ofDigitChars_toDigits (show 1 < 10 by decide) (by decide), Int.negSucc_eq]

/-! ## Values -/

def isSpace (c : Char) : Bool := c = ' ' ∨ c = '\t' ∨ c = '\n' ∨ c = '\r'

def skipSpace (input : List Char) : List Char := input.dropWhile isSpace

section
variable {α : Type} (item : List Char → Option (α × List Char)) (close : Char)

def scanItems : Nat → List Char → Option (List α × List Char)
  | 0, _ => none
  | fuel + 1, input =>
    match item input with
    | none => none
    | some (a, input) =>
      match skipSpace input with
      | [] => none
      | c :: input =>
        if c = ',' then (scanItems fuel input).map fun (as, rest) => (a :: as, rest)
        else if c = close then some ([a], input)
        else none

def scanSequence (input : List Char) : Option (List α × List Char) :=
  match skipSpace input with
  | [] => none
  | c :: rest => if c = close then some ([], rest) else scanItems item close input.length input

end

def scanMember (value : List Char → Option (Json × List Char)) (input : List Char) :
    Option ((List Char × Json) × List Char) :=
  match skipSpace input with
  | [] => none
  | c :: input =>
    if c = '"' then
      match scanString input with
      | none => none
      | some (key, input) =>
        match skipSpace input with
        | [] => none
        | c :: input =>
          if c = ':' then (value input).map fun (j, rest) => ((key, j), rest) else none
    else none

def scanWord (word : List Char) (j : Json) (input : List Char) : Option (Json × List Char) :=
  if word <+: input then some (j, input.drop word.length) else none

def scanValue : Nat → List Char → Option (Json × List Char)
  | 0, _ => none
  | depth + 1, input =>
    match skipSpace input with
    | [] => none
    | c :: rest =>
      if c = '"' then (scanString rest).map fun (raw, rest) => (.string raw, rest)
      else if c = '[' then
        (scanSequence (scanValue depth) ']' rest).map fun (items, rest) => (.array items, rest)
      else if c = '\x7b' then
        (scanSequence (scanMember (scanValue depth)) '\x7d' rest).map
          fun (members, rest) => (.object members, rest)
      else if c = 'n' then scanWord ['n', 'u', 'l', 'l'] .null (c :: rest)
      else if c = 't' then scanWord ['t', 'r', 'u', 'e'] (.bool true) (c :: rest)
      else if c = 'f' then scanWord ['f', 'a', 'l', 's', 'e'] (.bool false) (c :: rest)
      else (scanNumber (c :: rest)).map fun (raw, rest) => (.number raw, rest)

def maxDepth : Nat := 10001

def parse (bytes : List UInt8) : Option Json :=
  match scanValue maxDepth (runes bytes) with
  | none => none
  | some (j, rest) => if skipSpace rest = [] then some j else none

def separated : List (List Char) → List Char
  | [] => []
  | [piece] => piece
  | piece :: pieces => piece ++ ',' :: separated pieces

mutual

def render : Json → List Char
  | .null => ['n', 'u', 'l', 'l']
  | .bool b => if b then ['t', 'r', 'u', 'e'] else ['f', 'a', 'l', 's', 'e']
  | .number raw => raw
  | .string raw => '"' :: raw ++ ['"']
  | .array items => '[' :: separated (renderItems items) ++ [']']
  | .object members => '\x7b' :: separated (renderMembers members) ++ ['\x7d']

def renderItems : List Json → List (List Char)
  | [] => []
  | j :: items => render j :: renderItems items

def renderMembers : List (List Char × Json) → List (List Char)
  | [] => []
  | (key, j) :: members => ('"' :: key ++ '"' :: ':' :: render j) :: renderMembers members

end

inductive Printable : Nat → Json → Prop
  | null : Printable (depth + 1) .null
  | bool (b : Bool) : Printable (depth + 1) (.bool b)
  | number (scans : ScansNumber raw) : Printable (depth + 1) (.number raw)
  | string (scans : Scans raw) : Printable (depth + 1) (.string raw)
  | array (all : ∀ j ∈ items, Printable depth j) : Printable (depth + 1) (.array items)
  | object (keys : ∀ m ∈ members, Scans m.1) (all : ∀ m ∈ members, Printable depth m.2) :
      Printable (depth + 1) (.object members)

def begins (c : Char) : Bool :=
  c.isDigit || ['"', '[', '\x7b', 'n', 't', 'f', '-'].contains c

variable {c : Char}

theorem begins_plain (first : begins c) : isSpace c = false ∧ c ≠ ']' ∧ c ≠ '\x7d' := by
  by_contra other
  have odd : c = ' ' ∨ c = '\t' ∨ c = '\n' ∨ c = '\r' ∨ c = ']' ∨ c = '\x7d' := by
    simp only [isSpace, decide_eq_false_iff_not] at other
    tauto
  rcases odd with rfl | rfl | rfl | rfl | rfl | rfl <;> exact absurd first (by decide)

theorem skipSpace_cons (plain : isSpace c = false) : skipSpace (c :: rest) = c :: rest := by
  simp [skipSpace, plain]

theorem scanNumber_head (scanned : scanNumber input = some result) :
    ∃ c rest, input = c :: rest ∧ (c = '-' ∨ c.isDigit) := by
  cases input with
  | nil => simp [scanNumber, scanSign, scanDigits] at scanned
  | cons c rest =>
    refine ⟨c, rest, rfl, ?_⟩
    by_contra other
    rw [not_or] at other
    simp [scanNumber, scanSign, scanDigits, other.1, other.2] at scanned

theorem scansNumber_head (scans : ScansNumber raw) :
    ∃ c rest, raw = c :: rest ∧ (c = '-' ∨ c.isDigit) := by
  have scanned := scans [] (by simp [Delimited])
  rw [append_nil] at scanned
  exact scanNumber_head scanned

theorem numberStart_plain (first : c = '-' ∨ c.isDigit) :
    c ≠ '"' ∧ c ≠ '[' ∧ c ≠ '\x7b' ∧ c ≠ 'n' ∧ c ≠ 't' ∧ c ≠ 'f' ∧ isSpace c = false := by
  by_contra other
  have odd : c = '"' ∨ c = '[' ∨ c = '\x7b' ∨ c = 'n' ∨ c = 't' ∨ c = 'f' ∨ c = ' ' ∨ c = '\t' ∨
      c = '\n' ∨ c = '\r' := by
    simp only [isSpace, decide_eq_false_iff_not] at other
    tauto
  rcases odd with rfl | rfl | rfl | rfl | rfl | rfl | rfl | rfl | rfl | rfl <;>
    exact absurd first (by decide)

theorem render_begins (printable : Printable depth j) :
    ∃ c rest, render j = c :: rest ∧ begins c := by
  cases printable with
  | null => exact ⟨'n', _, by rw [render], by decide⟩
  | bool b =>
    cases b with
    | true => exact ⟨'t', _, by rw [render, if_pos rfl], by decide⟩
    | false => exact ⟨'f', _, by rw [render]; rfl, by decide⟩
  | number scans =>
    obtain ⟨c, rest, split, first⟩ := scansNumber_head scans
    refine ⟨c, rest, by rw [render, split], ?_⟩
    rcases first with rfl | digit
    · decide
    · simp [begins, digit]
  | string => exact ⟨'"', _, by rw [render]; rfl, by decide⟩
  | array => exact ⟨'[', _, by rw [render]; rfl, by decide⟩
  | object => exact ⟨'\x7b', _, by rw [render]; rfl, by decide⟩

section
variable {α : Type} {item : List Char → Option (α × List Char)} {close : Char}

def Reads (item : List Char → Option (α × List Char)) (a : α) (piece : List Char) : Prop :=
  (∃ c rest, piece = c :: rest ∧ begins c) ∧
    ∀ rest, Delimited rest → item (piece ++ rest) = some (a, rest)

theorem delimited_cons (mark : c = ',' ∨ c = ']' ∨ c = '\x7d') (rest : List Char) :
    Delimited (c :: rest) := by
  rintro _ ⟨rfl⟩
  exact mark

variable {pieces : List (List Char)} {as : List α}

theorem scanItems_separated (closing : close = ']' ∨ close = '\x7d')
    (reads : List.Forall₂ (Reads item) as pieces) {fuel : Nat} (enough : as.length ≤ fuel)
    (nonempty : as ≠ []) (rest : List Char) :
    scanItems item close fuel (separated pieces ++ close :: rest) = some (as, rest) := by
  have noComma : close ≠ ',' := by rcases closing with rfl | rfl <;> decide
  have noSpace : isSpace close = false := by rcases closing with rfl | rfl <;> decide
  induction reads generalizing fuel with
  | nil => exact absurd rfl nonempty
  | @cons a piece as pieces read reads ih =>
    obtain ⟨fuel, rfl⟩ : ∃ fewer, fuel = fewer + 1 := Nat.exists_eq_add_of_le' (by
      rw [length_cons] at enough
      omega)
    cases reads with
    | nil =>
      have last := read.2 (close :: rest) (delimited_cons (.inr closing) rest)
      simp [scanItems, separated, last, skipSpace_cons noSpace, noComma]
    | @cons a' piece' as pieces read' reads =>
      have later := ih (Nat.le_of_succ_le_succ enough) (cons_ne_nil _ _)
      have first := read.2 (',' :: (separated (piece' :: pieces) ++ close :: rest))
        (delimited_cons (.inl rfl) _)
      rw [separated, append_assoc, cons_append]
      · simp only [scanItems, first, skipSpace_cons (show isSpace ',' = false by decide), if_true,
          later, Option.map_some]
      · exact cons_ne_nil _ _

theorem length_separated (reads : List.Forall₂ (Reads item) as pieces) :
    as.length ≤ (separated pieces).length := by
  induction reads with
  | nil => exact Nat.le_refl _
  | @cons a piece as pieces read reads ih =>
    obtain ⟨c, rest, rfl, -⟩ := read.1
    cases reads with
    | nil => simp [separated]
    | @cons a' piece' as pieces read' reads =>
      rw [separated]
      · simp only [length_append, length_cons] at ih ⊢
        omega
      · exact cons_ne_nil _ _

theorem scanSequence_separated (closing : close = ']' ∨ close = '\x7d')
    (reads : List.Forall₂ (Reads item) as pieces) (rest : List Char) :
    scanSequence item close (separated pieces ++ close :: rest) = some (as, rest) := by
  have noSpace : isSpace close = false := by rcases closing with rfl | rfl <;> decide
  cases reads with
  | nil => simp [scanSequence, separated, skipSpace_cons noSpace]
  | @cons a piece as pieces read reads =>
    have all : List.Forall₂ (Reads item) (a :: as) (piece :: pieces) := .cons read reads
    obtain ⟨c, tail, split, first⟩ := read.1
    obtain ⟨space, bracket, brace⟩ := begins_plain first
    have apart : c ≠ close := by rcases closing with rfl | rfl <;> assumption
    obtain ⟨tail', start⟩ : ∃ tail', separated (piece :: pieces) ++ close :: rest = c :: tail' := by
      rw [split]
      cases pieces <;> exact ⟨_, rfl⟩
    have enough : (a :: as).length ≤ (c :: tail').length := by
      rw [← start, length_append]
      exact Nat.le_trans (length_separated all) (Nat.le_add_right _ _)
    have items := scanItems_separated closing all enough (cons_ne_nil _ _) rest
    rw [start] at items ⊢
    simp only [scanSequence, skipSpace_cons space, apart, if_false]
    exact items

end

theorem scanMember_render (scans : Scans key) (read : Reads value j (render j)) :
    Reads (scanMember value) (key, j) ('"' :: key ++ '"' :: ':' :: render j) := by
  refine ⟨⟨'"', _, rfl, by decide⟩, fun rest delimited => ?_⟩
  have quoted := scans (':' :: (render j ++ rest))
  have read' := read.2 rest delimited
  simp only [scanMember, cons_append, append_assoc,
    skipSpace_cons (show isSpace '"' = false by decide), if_true, quoted,
    skipSpace_cons (show isSpace ':' = false by decide), read', Option.map_some]

theorem reads_items (all : ∀ j ∈ items, Reads value j (render j)) :
    List.Forall₂ (Reads value) items (renderItems items) := by
  induction items with
  | nil => exact .nil
  | cons j items ih =>
    rw [forall_mem_cons] at all
    exact .cons all.1 (ih all.2)

theorem reads_members (keys : ∀ m ∈ members, Scans m.1)
    (all : ∀ m ∈ members, Reads value m.2 (render m.2)) :
    List.Forall₂ (Reads (scanMember value)) members (renderMembers members) := by
  induction members with
  | nil => exact .nil
  | cons m members ih =>
    rw [forall_mem_cons] at keys all
    exact .cons (scanMember_render keys.1 all.1) (ih keys.2 all.2)

theorem scanValue_render (printable : Printable depth j) :
    Reads (scanValue depth) j (render j) := by
  refine ⟨render_begins printable, fun rest delimited => ?_⟩
  induction depth generalizing j rest with
  | zero => cases printable
  | succ depth ih =>
    have read : ∀ j, Printable depth j → Reads (scanValue depth) j (render j) := fun j below =>
      ⟨render_begins below, fun rest delimited => ih below rest delimited⟩
    cases printable with
    | null => simp [scanValue, render, skipSpace_cons (show isSpace 'n' = false by decide), scanWord]
    | bool b =>
      cases b with
      | true =>
        simp [scanValue, render, skipSpace_cons (show isSpace 't' = false by decide), scanWord]
      | false =>
        simp [scanValue, render, skipSpace_cons (show isSpace 'f' = false by decide), scanWord]
    | number scans =>
      obtain ⟨c, tail, split, first⟩ := scansNumber_head scans
      have scanned := scans rest delimited
      obtain ⟨noQuote, noBracket, noBrace, noNull, noTrue, noFalse, noSpace⟩ :=
        numberStart_plain first
      rw [split] at scanned
      simp only [scanValue, render, split, cons_append, skipSpace_cons noSpace, noQuote,
        noBracket, noBrace, noNull, noTrue, noFalse, if_false]
      rw [cons_append] at scanned
      rw [scanned, Option.map_some]
    | string scans =>
      have scanned := scans rest
      simp [scanValue, render, skipSpace_cons (show isSpace '"' = false by decide), scanned]
    | array all =>
      have items := scanSequence_separated (.inl rfl) (reads_items fun j member =>
        read j (all j member)) rest
      simp [scanValue, render, skipSpace_cons (show isSpace '[' = false by decide), items]
    | object keys all =>
      have members := scanSequence_separated (.inr rfl) (reads_members keys fun m member =>
        read m.2 (all m member)) rest
      simp [scanValue, render, skipSpace_cons (show isSpace '\x7b' = false by decide), members]

theorem parse_render (printable : Printable maxDepth j) : parse (utf8 (render j)) = some j := by
  have scanned := (scanValue_render printable).2 [] (by simp [Delimited])
  rw [append_nil] at scanned
  simp [parse, runes_utf8, scanned, skipSpace]

end Json
end NexusPipe.Library
