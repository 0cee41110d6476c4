import Mathlib

/-!
# Machinery/JsonText — the strings and numbers of JSON, as Python writes and reads them

`json.dumps` writes a string in printable ASCII: everything else becomes an escape, and what needs
more than sixteen bits becomes two.  `json.loads` undoes that (`scanString_escape`).  A number is
read as far as it goes (`scanNumber_append`), so what follows it matters: `Closes`.  What is written
and what is read of a number is printable (`printable_escape`, `printable_scanNumber`).

A text is a list of characters, and what is left of it after a token is returned with the token.
-/

namespace Machinery.JsonText

/-! ## Strings -/

/-- Four hexadecimal digits. -/
def unitDigits (n : ℕ) : List Char :=
  [Nat.digitChar (n / 4096 % 16), Nat.digitChar (n / 256 % 16), Nat.digitChar (n / 16 % 16),
    Nat.digitChar (n % 16)]

/-- `\uXXXX`. -/
def escapeUnit (n : ℕ) : List Char := '\\' :: 'u' :: unitDigits n

/-- One character, under `ensure_ascii`; above `0xffff`, a surrogate pair. -/
def escapeChar (c : Char) : List Char :=
  if c = '\\' then ['\\', '\\']
  else if c = '"' then ['\\', '"']
  else if c = '\n' then ['\\', 'n']
  else if c = '\r' then ['\\', 'r']
  else if c = '\t' then ['\\', 't']
  else if c = '\x08' then ['\\', 'b']
  else if c = '\x0c' then ['\\', 'f']
  else if ' ' ≤ c ∧ c ≤ '~' then [c]
  else if c.toNat < 0x10000 then escapeUnit c.toNat
  else escapeUnit (0xd800 + (c.toNat - 0x10000) / 0x400) ++
    escapeUnit (0xdc00 + (c.toNat - 0x10000) % 0x400)

/-- The characters of a string, between its quotes. -/
def escape (s : List Char) : List Char := s.flatMap escapeChar

/-- A hexadecimal digit. -/
def hexValue (c : Char) : Option ℕ :=
  if '0' ≤ c ∧ c ≤ '9' then some (c.toNat - '0'.toNat)
  else if 'a' ≤ c ∧ c ≤ 'f' then some (c.toNat - 'a'.toNat + 10)
  else if 'A' ≤ c ∧ c ≤ 'F' then some (c.toNat - 'A'.toNat + 10)
  else none

/-- Four hexadecimal digits, after `\u`. -/
def scanUnit : List Char → Option (ℕ × List Char)
  | a :: b :: c :: d :: s => do
      let w ← hexValue a
      let x ← hexValue b
      let y ← hexValue c
      let z ← hexValue d
      return (((w * 16 + x) * 16 + y) * 16 + z, s)
  | _ => none

/-- The character with a code; a lone surrogate is none. -/
def charOf (n : ℕ) : Option Char := if n.isValidChar then some (Char.ofNat n) else none

/-- What follows `\u`: a unit, or two that are a surrogate pair. -/
def scanUnits (s : List Char) : Option (Char × List Char) := do
  let (high, s) ← scanUnit s
  if 0xd800 ≤ high ∧ high ≤ 0xdbff then
    match s with
    | '\\' :: 'u' :: t => do
        let (low, t) ← scanUnit t
        if 0xdc00 ≤ low ∧ low ≤ 0xdfff then
          let c ← charOf (0x10000 + ((high - 0xd800) * 0x400 + (low - 0xdc00)))
          return (c, t)
        else none
    | _ => none
  else
    let c ← charOf high
    return (c, s)

/-- What follows a backslash. -/
def unescape : List Char → Option (Char × List Char)
  | '"' :: s => some ('"', s)
  | '\\' :: s => some ('\\', s)
  | '/' :: s => some ('/', s)
  | 'b' :: s => some ('\x08', s)
  | 'f' :: s => some ('\x0c', s)
  | 'n' :: s => some ('\n', s)
  | 'r' :: s => some ('\r', s)
  | 't' :: s => some ('\t', s)
  | 'u' :: s => scanUnits s
  | _ => none

/-- The rest of a string, after its opening quote; `fuel` bounds its characters. -/
def scanString : ℕ → List Char → Option (List Char × List Char)
  | fuel + 1, c :: s =>
      if c = '"' then some ([], s)
      else if c = '\\' then do
        let (d, s) ← unescape s
        let (cs, s) ← scanString fuel s
        return (d :: cs, s)
      else if c.toNat < 0x20 then none
      else do
        let (cs, s) ← scanString fuel s
        return (c :: cs, s)
  | _, _ => none

theorem hexValue_digitChar {n : ℕ} (h : n < 16) : hexValue (Nat.digitChar n) = some n := by
  have hall : ∀ n < 16, hexValue (Nat.digitChar n) = some n := by decide
  exact hall n h

theorem scanUnit_unitDigits {n : ℕ} (h : n < 0x10000) (s : List Char) :
    scanUnit (unitDigits n ++ s) = some (n, s) := by
  have hmod : ∀ m, m % 16 < 16 := fun m => Nat.mod_lt m (by decide)
  simp only [unitDigits, List.cons_append, List.nil_append, scanUnit, hexValue_digitChar (hmod _),
    Option.bind_eq_bind, Option.bind_some, Option.pure_def, Option.some.injEq, Prod.mk.injEq,
    and_true]
  omega

theorem charOf_toNat (c : Char) : charOf c.toNat = some c := by
  have hvalid : c.toNat.isValidChar := c.valid
  rw [charOf, if_pos hvalid, Char.ofNat_toNat]

/-- A character of the first plane is one unit, and no surrogate. -/
theorem scanUnits_of_lt {c : Char} (h : c.toNat < 0x10000) (s : List Char) :
    scanUnits (unitDigits c.toNat ++ s) = some (c, s) := by
  have hvalid : c.toNat.isValidChar := c.valid
  have hhigh : ¬ (0xd800 ≤ c.toNat ∧ c.toNat ≤ 0xdbff) := by
    rcases hvalid with hlt | ⟨hgt, -⟩ <;> omega
  simp only [scanUnits, scanUnit_unitDigits h, Option.bind_eq_bind, Option.bind_some, if_neg hhigh,
    charOf_toNat, Option.pure_def]

theorem scanUnits_pair {high low : ℕ} (hhigh : 0xd800 ≤ high ∧ high ≤ 0xdbff)
    (hlow : 0xdc00 ≤ low ∧ low ≤ 0xdfff) (s : List Char) :
    scanUnits (unitDigits high ++ '\\' :: 'u' :: (unitDigits low ++ s)) =
      (charOf (0x10000 + ((high - 0xd800) * 0x400 + (low - 0xdc00)))).map fun c => (c, s) := by
  have hhigh' : high < 0x10000 := by omega
  have hlow' : low < 0x10000 := by omega
  simp only [scanUnits, scanUnit_unitDigits hhigh', scanUnit_unitDigits hlow', Option.bind_eq_bind,
    Option.bind_some, if_pos hhigh, if_pos hlow, Option.pure_def]
  rw [Option.map_eq_bind]
  rfl

/-- Another is two. -/
theorem scanUnits_of_ge {c : Char} (h : 0x10000 ≤ c.toNat) (s : List Char) :
    scanUnits (unitDigits (0xd800 + (c.toNat - 0x10000) / 0x400) ++
      '\\' :: 'u' :: (unitDigits (0xdc00 + (c.toNat - 0x10000) % 0x400) ++ s)) = some (c, s) := by
  have hlt : c.toNat < 0x110000 := by
    have hvalid : c.toNat.isValidChar := c.valid
    rcases hvalid with hlt | ⟨-, hlt⟩ <;> omega
  obtain ⟨u, hu⟩ : ∃ u, u = c.toNat - 0x10000 := ⟨_, rfl⟩
  rw [← hu, scanUnits_pair (by omega) (by omega)]
  have hcode : 0x10000 + ((0xd800 + u / 0x400 - 0xd800) * 0x400 +
      (0xdc00 + u % 0x400 - 0xdc00)) = c.toNat := by omega
  rw [hcode, charOf_toNat, Option.map_some]

/-- **A character stands for itself, or its escape is read back.** -/
theorem escapeChar_cases (c : Char) :
    (escapeChar c = [c] ∧ c ≠ '"' ∧ c ≠ '\\' ∧ ¬ c.toNat < 0x20) ∨
      ∃ e, escapeChar c = '\\' :: e ∧ ∀ s, unescape (e ++ s) = some (c, s) := by
  by_cases hbackslash : c = '\\'
  · exact .inr ⟨['\\'], by simp [escapeChar, hbackslash], by simp [unescape, hbackslash]⟩
  by_cases hquote : c = '"'
  · exact .inr ⟨['"'], by simp [escapeChar, hquote], by simp [unescape, hquote]⟩
  by_cases hnewline : c = '\n'
  · exact .inr ⟨['n'], by simp [escapeChar, hnewline], by simp [unescape, hnewline]⟩
  by_cases hreturn : c = '\r'
  · exact .inr ⟨['r'], by simp [escapeChar, hreturn], by simp [unescape, hreturn]⟩
  by_cases htab : c = '\t'
  · exact .inr ⟨['t'], by simp [escapeChar, htab], by simp [unescape, htab]⟩
  by_cases hback : c = '\x08'
  · exact .inr ⟨['b'], by simp [escapeChar, hback], by simp [unescape, hback]⟩
  by_cases hfeed : c = '\x0c'
  · exact .inr ⟨['f'], by simp [escapeChar, hfeed], by simp [unescape, hfeed]⟩
  have hescape : escapeChar c = if ' ' ≤ c ∧ c ≤ '~' then [c]
      else if c.toNat < 0x10000 then escapeUnit c.toNat
      else escapeUnit (0xd800 + (c.toNat - 0x10000) / 0x400) ++
        escapeUnit (0xdc00 + (c.toNat - 0x10000) % 0x400) := by
    simp only [escapeChar, if_neg hbackslash, if_neg hquote, if_neg hnewline, if_neg hreturn,
      if_neg htab, if_neg hback, if_neg hfeed]
  rw [hescape]
  split_ifs with hprint hunit
  · exact .inl ⟨rfl, hquote, hbackslash, not_lt.mpr hprint.1⟩
  · exact .inr ⟨'u' :: unitDigits c.toNat, rfl, scanUnits_of_lt hunit⟩
  · refine .inr ⟨'u' :: (unitDigits (0xd800 + (c.toNat - 0x10000) / 0x400) ++
      escapeUnit (0xdc00 + (c.toNat - 0x10000) % 0x400)), rfl, fun s => ?_⟩
    rw [List.cons_append, List.append_assoc]
    exact scanUnits_of_ge (not_lt.mp hunit) s

/-- **Strings are read back.** -/
theorem scanString_escape (cs : List Char) {fuel : ℕ} (h : (escape cs).length < fuel)
    (s : List Char) : scanString fuel (escape cs ++ '"' :: s) = some (cs, s) := by
  induction cs generalizing fuel with
  | nil =>
    obtain ⟨fuel, rfl⟩ := Nat.exists_eq_succ_of_ne_zero (Nat.ne_of_gt h)
    simp [escape, scanString]
  | cons c cs ih =>
    have hcons : escape (c :: cs) = escapeChar c ++ escape cs := List.flatMap_cons
    rw [hcons] at h ⊢
    rw [List.length_append] at h
    obtain ⟨fuel, rfl⟩ := Nat.exists_eq_succ_of_ne_zero (Nat.ne_of_gt (Nat.zero_lt_of_lt h))
    rcases escapeChar_cases c with ⟨hself, hquote, hbackslash, hcontrol⟩ | ⟨e, heq, hread⟩
    · rw [hself, List.length_singleton] at h
      have hrest := @ih fuel (by omega)
      simp only [hself, List.cons_append, List.nil_append, scanString, if_neg hquote,
        if_neg hbackslash, if_neg hcontrol, hrest, Option.bind_eq_bind, Option.bind_some,
        Option.pure_def]
    · rw [heq, List.length_cons] at h
      have hrest := @ih fuel (by omega)
      simp [heq, scanString, hread, hrest]

/-! ## Numbers -/

/-- The text of an integer. -/
def intText (n : ℤ) : List Char :=
  if n < 0 then '-' :: Nat.toDigits 10 n.natAbs else Nat.toDigits 10 n.natAbs

/-- `int(text)`, for a text of digits after an optional minus. -/
def readInt : List Char → ℤ
  | [] => 0
  | c :: ds =>
      if c = '-' then -(Nat.ofDigitChars 10 ds 0 : ℤ) else Nat.ofDigitChars 10 (c :: ds) 0

/-- `0|[1-9][0-9]*`. -/
def scanNatural : List Char → Option (List Char × List Char)
  | [] => none
  | c :: s =>
      if c = '0' then some (['0'], s)
      else if c.isDigit then some (c :: s.takeWhile Char.isDigit, s.dropWhile Char.isDigit)
      else none

/-- `-?(?:0|[1-9][0-9]*)`. -/
def scanInteger : List Char → Option (List Char × List Char)
  | [] => none
  | c :: s =>
      if c = '-' then (scanNatural s).map fun r => ('-' :: r.1, r.2)
      else scanNatural (c :: s)

/-- `[0-9]+`, after the part `pre` of a group; without a digit the group is empty, and `s` left. -/
def scanDigits (pre s : List Char) : List Char → List Char × List Char
  | [] => ([], s)
  | c :: t =>
      if c.isDigit then (pre ++ c :: t.takeWhile Char.isDigit, t.dropWhile Char.isDigit)
      else ([], s)

/-- `(\.[0-9]+)?`. -/
def scanFrac : List Char → List Char × List Char
  | [] => ([], [])
  | c :: t => if c = '.' then scanDigits [c] (c :: t) t else ([], c :: t)

/-- `[-+]?`. -/
def scanSign : List Char → List Char × List Char
  | [] => ([], [])
  | c :: t => if c = '-' ∨ c = '+' then ([c], t) else ([], c :: t)

/-- `([eE][-+]?[0-9]+)?`. -/
def scanExp : List Char → List Char × List Char
  | [] => ([], [])
  | c :: t =>
      if c = 'e' ∨ c = 'E' then scanDigits (c :: (scanSign t).1) (c :: t) (scanSign t).2
      else ([], c :: t)

/-- `NUMBER_RE`: the three groups, and what is left. -/
def scanNumber (s : List Char) : Option (List Char × List Char × List Char × List Char) :=
  (scanInteger s).map fun (integer, s) =>
    (integer, (scanFrac s).1, (scanExp (scanFrac s).2).1, (scanExp (scanFrac s).2).2)

/-- What may follow a value: nothing, a comma or a closing bracket. -/
def Closes : List Char → Prop
  | [] => True
  | c :: _ => c = ',' ∨ c = ']' ∨ c = '}'

section Extend

variable {s t : List Char}

theorem Closes.not_isDigit (hs : Closes s) : s.takeWhile Char.isDigit = [] ∧
    s.dropWhile Char.isDigit = s := by
  cases s with
  | nil => exact ⟨rfl, rfl⟩
  | cons c s => rcases hs with rfl | rfl | rfl <;> exact ⟨rfl, rfl⟩

theorem takeWhile_append (hs : Closes s) (t : List Char) :
    (t ++ s).takeWhile Char.isDigit = t.takeWhile Char.isDigit ∧
      (t ++ s).dropWhile Char.isDigit = t.dropWhile Char.isDigit ++ s := by
  induction t with
  | nil => exact hs.not_isDigit
  | cons c t ih =>
    by_cases hc : c.isDigit = true <;> simp [hc, ih]

theorem scanNatural_append (hs : Closes s) {ds r : List Char} (h : scanNatural t = some (ds, r)) :
    scanNatural (t ++ s) = some (ds, r ++ s) := by
  cases t with
  | nil => simp [scanNatural] at h
  | cons c t =>
    simp only [List.cons_append, scanNatural, takeWhile_append hs] at h ⊢
    split_ifs at h ⊢ <;> simp_all

theorem scanInteger_append (hs : Closes s) {ds r : List Char} (h : scanInteger t = some (ds, r)) :
    scanInteger (t ++ s) = some (ds, r ++ s) := by
  cases t with
  | nil => simp [scanInteger] at h
  | cons c t =>
    rw [List.cons_append]
    simp only [scanInteger] at h ⊢
    split_ifs at h ⊢ with hc
    · obtain ⟨⟨ds', r'⟩, hnat, heq⟩ := Option.map_eq_some_iff.mp h
      rw [scanNatural_append hs hnat]
      simpa using heq
    · exact scanNatural_append hs h

theorem scanDigits_append (hs : Closes s) (pre u t : List Char) :
    scanDigits pre (u ++ s) (t ++ s) = ((scanDigits pre u t).1, (scanDigits pre u t).2 ++ s) := by
  cases t with
  | nil =>
    cases s with
    | nil => simp [scanDigits]
    | cons c s => rcases hs with rfl | rfl | rfl <;> simp [scanDigits]
  | cons c t =>
    simp only [List.cons_append, scanDigits, takeWhile_append hs]
    split_ifs <;> rfl

theorem scanFrac_append (hs : Closes s) (t : List Char) :
    scanFrac (t ++ s) = ((scanFrac t).1, (scanFrac t).2 ++ s) := by
  cases t with
  | nil =>
    cases s with
    | nil => rfl
    | cons c s => rcases hs with rfl | rfl | rfl <;> rfl
  | cons c t =>
    simp only [List.cons_append, scanFrac]
    split_ifs
    · exact scanDigits_append hs [c] (c :: t) t
    · rfl

theorem scanSign_append (hs : Closes s) (t : List Char) :
    scanSign (t ++ s) = ((scanSign t).1, (scanSign t).2 ++ s) := by
  cases t with
  | nil =>
    cases s with
    | nil => rfl
    | cons c s => rcases hs with rfl | rfl | rfl <;> rfl
  | cons c t =>
    simp only [List.cons_append, scanSign]
    split_ifs <;> rfl

theorem scanExp_append (hs : Closes s) (t : List Char) :
    scanExp (t ++ s) = ((scanExp t).1, (scanExp t).2 ++ s) := by
  cases t with
  | nil =>
    cases s with
    | nil => rfl
    | cons c s => rcases hs with rfl | rfl | rfl <;> rfl
  | cons c t =>
    simp only [List.cons_append, scanExp, scanSign_append hs]
    split_ifs
    · exact scanDigits_append hs (c :: (scanSign t).1) (c :: t) (scanSign t).2
    · rfl

/-- **What may follow a number is not part of it.** -/
theorem scanNumber_append (hs : Closes s) {integer frac exp : List Char}
    (h : scanNumber t = some (integer, frac, exp, [])) :
    scanNumber (t ++ s) = some (integer, frac, exp, s) := by
  obtain ⟨⟨ds, r⟩, hint, heq⟩ := Option.map_eq_some_iff.mp h
  simp only [Prod.mk.injEq] at heq
  obtain ⟨rfl, rfl, rfl, hnil⟩ := heq
  simp [scanNumber, scanInteger_append hs hint, scanFrac_append hs, scanExp_append hs, hnil]

end Extend

/-! ### Integers -/

theorem isDigit_toDigits {n : ℕ} {c : Char} (hc : c ∈ Nat.toDigits 10 n) : c.isDigit = true :=
  Nat.isDigit_of_mem_toDigits (by decide) (by decide) hc

/-- A natural number does not begin with a minus… -/
theorem toDigits_eq_cons (n : ℕ) : ∃ c t, Nat.toDigits 10 n = c :: t ∧ c ≠ '-' := by
  obtain ⟨c, t, heq⟩ := List.exists_cons_of_ne_nil (Nat.toDigits_ne_nil (n := n) (b := 10))
  refine ⟨c, t, heq, ?_⟩
  rintro rfl
  exact absurd (isDigit_toDigits (heq ▸ List.mem_cons_self)) (by decide)

/-- …nor a positive one with a zero. -/
theorem toDigits_eq_cons_of_pos {n : ℕ} (hn : 0 < n) :
    ∃ c t, Nat.toDigits 10 n = c :: t ∧ c ≠ '0' := by
  induction n using Nat.strong_induction_on with
  | _ n ih =>
    rcases Nat.lt_or_ge n 10 with hlt | hge
    · refine ⟨n.digitChar, [], Nat.toDigits_of_lt_base hlt, ?_⟩
      have hall : ∀ n < 10, 0 < n → n.digitChar ≠ '0' := by decide
      exact hall n hlt hn
    · obtain ⟨c, t, heq, hc⟩ := ih (n / 10) (by omega) (by omega)
      rw [Nat.toDigits_of_base_le (by decide) hge, heq]
      exact ⟨c, _, rfl, hc⟩

theorem scanNatural_toDigits (n : ℕ) :
    scanNatural (Nat.toDigits 10 n) = some (Nat.toDigits 10 n, []) := by
  rcases Nat.eq_zero_or_pos n with rfl | hn
  · simp [scanNatural]
  · obtain ⟨c, t, heq, hzero⟩ := toDigits_eq_cons_of_pos hn
    have hdigit : ∀ d ∈ c :: t, d.isDigit = true := fun d hd => isDigit_toDigits (heq ▸ hd)
    have htake : t.takeWhile Char.isDigit = t :=
      List.takeWhile_eq_self_iff.mpr fun d hd => hdigit d (List.mem_cons_of_mem _ hd)
    have hdrop : t.dropWhile Char.isDigit = [] :=
      List.dropWhile_eq_nil_iff.mpr fun d hd => hdigit d (List.mem_cons_of_mem _ hd)
    rw [heq]
    simp [scanNatural, hzero, hdigit c List.mem_cons_self, htake, hdrop]

/-- **Integers are read back.** -/
theorem scanNumber_intText (n : ℤ) : scanNumber (intText n) = some (intText n, [], [], []) := by
  have hint : scanInteger (intText n) = some (intText n, []) := by
    rw [intText]
    split_ifs with hneg
    · simp [scanInteger, scanNatural_toDigits]
    · obtain ⟨c, t, heq, hminus⟩ := toDigits_eq_cons n.natAbs
      have hnat := scanNatural_toDigits n.natAbs
      rw [heq] at hnat ⊢
      rwa [scanInteger, if_neg hminus]
  simp [scanNumber, hint, scanFrac, scanExp]

theorem readInt_intText (n : ℤ) : readInt (intText n) = n := by
  rw [intText]
  split_ifs with hneg
  · rw [readInt, if_pos rfl, Nat.ofDigitChars_ten_toDigits]
    omega
  · obtain ⟨c, t, heq, hminus⟩ := toDigits_eq_cons n.natAbs
    rw [heq, readInt, if_neg hminus, ← heq, Nat.ofDigitChars_ten_toDigits]
    omega

/-! ## Printable text -/

/-- Printable ASCII. -/
def Printable (c : Char) : Prop := ' ' ≤ c ∧ c ≤ '~'

instance (c : Char) : Decidable (Printable c) := inferInstanceAs (Decidable (_ ∧ _))

theorem printable_of_all {l : List Char} (h : l.all (fun c => decide (Printable c)) = true) :
    ∀ d ∈ l, Printable d := by
  simpa using h

theorem printable_of_isDigit {c : Char} (h : c.isDigit = true) : Printable c := by
  have hrange : 48 ≤ c.toNat ∧ c.toNat ≤ 57 := by
    simpa [Char.isDigit, UInt32.le_iff_toNat_le] using h
  have hbounds : 32 ≤ c.toNat ∧ c.toNat ≤ 126 := by omega
  exact hbounds

theorem printable_unitDigits (n : ℕ) : ∀ d ∈ unitDigits n, Printable d := by
  have hall : ∀ n < 16, Printable (Nat.digitChar n) := by decide
  simp [unitDigits, hall, Nat.mod_lt]

theorem printable_escapeUnit (n : ℕ) : ∀ d ∈ escapeUnit n, Printable d := by
  have hu : Printable '\\' ∧ Printable 'u' := by decide
  simpa [escapeUnit, hu] using printable_unitDigits n

theorem printable_escapeChar (c : Char) : ∀ d ∈ escapeChar c, Printable d := by
  rw [escapeChar]
  split_ifs with _ _ _ _ _ _ _ hprint
  any_goals (refine printable_of_all ?_; decide)
  · exact List.forall_mem_singleton.mpr hprint
  · exact printable_escapeUnit _
  · exact List.forall_mem_append.mpr ⟨printable_escapeUnit _, printable_escapeUnit _⟩

/-- **A string is written in printable characters**… -/
theorem printable_escape (cs : List Char) : ∀ d ∈ escape cs, Printable d := by
  intro d hd
  obtain ⟨c, -, hc⟩ := List.mem_flatMap.mp hd
  exact printable_escapeChar c d hc

/-- …and so is a number. -/
theorem printable_intText (n : ℤ) : ∀ d ∈ intText n, Printable d := by
  have hdigits : ∀ d ∈ Nat.toDigits 10 n.natAbs, Printable d :=
    fun d hd => printable_of_isDigit (isDigit_toDigits hd)
  rw [intText]
  split_ifs
  · exact List.forall_mem_cons.mpr ⟨by decide, hdigits⟩
  · exact hdigits

theorem printable_scanNatural {s ds r : List Char} (h : scanNatural s = some (ds, r)) :
    ∀ d ∈ ds, Printable d := by
  cases s with
  | nil => cases h
  | cons c t =>
    simp only [scanNatural] at h
    split_ifs at h with hzero hdigit
    · cases h
      exact printable_of_all (by decide)
    · cases h
      exact List.forall_mem_cons.mpr ⟨printable_of_isDigit hdigit,
        fun d hd => printable_of_isDigit (List.mem_takeWhile_imp hd)⟩

theorem printable_scanInteger {s ds r : List Char} (h : scanInteger s = some (ds, r)) :
    ∀ d ∈ ds, Printable d := by
  cases s with
  | nil => cases h
  | cons c t =>
    rw [scanInteger] at h
    split_ifs at h
    · obtain ⟨⟨ds', r'⟩, hscan, heq⟩ := Option.map_eq_some_iff.mp h
      cases heq
      exact List.forall_mem_cons.mpr ⟨by decide, printable_scanNatural hscan⟩
    · exact printable_scanNatural h

theorem printable_scanDigits {pre : List Char} (hpre : ∀ d ∈ pre, Printable d)
    (s t : List Char) : ∀ d ∈ (scanDigits pre s t).1, Printable d := by
  cases t with
  | nil => simp [scanDigits]
  | cons c t =>
    rw [scanDigits]
    split_ifs with hdigit
    · exact List.forall_mem_append.mpr ⟨hpre, List.forall_mem_cons.mpr ⟨printable_of_isDigit hdigit,
        fun d hd => printable_of_isDigit (List.mem_takeWhile_imp hd)⟩⟩
    · simp

theorem printable_scanFrac (t : List Char) : ∀ d ∈ (scanFrac t).1, Printable d := by
  cases t with
  | nil => simp [scanFrac]
  | cons c t =>
    rw [scanFrac]
    split_ifs with hdot
    · exact printable_scanDigits (by simpa [hdot] using (by decide : Printable '.')) _ _
    · simp

theorem printable_scanSign (t : List Char) : ∀ d ∈ (scanSign t).1, Printable d := by
  cases t with
  | nil => simp [scanSign]
  | cons c t =>
    rw [scanSign]
    split_ifs with hsign
    · rcases hsign with rfl | rfl
      · exact List.forall_mem_singleton.mpr (by decide)
      · exact List.forall_mem_singleton.mpr (by decide)
    · simp

theorem printable_scanExp (t : List Char) : ∀ d ∈ (scanExp t).1, Printable d := by
  cases t with
  | nil => simp [scanExp]
  | cons c t =>
    rw [scanExp]
    split_ifs with hexp
    · refine printable_scanDigits (List.forall_mem_cons.mpr ⟨?_, printable_scanSign t⟩) _ _
      rcases hexp with rfl | rfl <;> decide
    · simp

theorem printable_scanNumber {s integer frac exp r : List Char}
    (h : scanNumber s = some (integer, frac, exp, r)) :
    ∀ d ∈ integer ++ frac ++ exp, Printable d := by
  obtain ⟨⟨ds, t⟩, hscan, heq⟩ := Option.map_eq_some_iff.mp h
  cases heq
  simp only [List.forall_mem_append]
  exact ⟨⟨printable_scanInteger hscan, printable_scanFrac t⟩, printable_scanExp _⟩

end Machinery.JsonText
