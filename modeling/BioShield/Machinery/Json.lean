import BioShield.Machinery.JsonText
import BioShield.Machinery.Dict
import Mathlib

/-!
# Machinery/Json — `json.dumps` and `json.loads`

The two are inverse on every value that `json.dumps` can write without loss (`loads_dumps`): its
dictionaries have distinct keys, and its floats are written as text that reads back.  Floats are a
parameter, with their `repr` and their `float`.
-/

namespace Machinery

open JsonText

/-- A value, over finite floats `F`; dictionaries are lists of items. -/
inductive Json (F : Type) : Type
  | null
  | bool (b : Bool)
  | int (n : ℤ)
  | float (x : F)
  | nan
  | infinity (negative : Bool)
  | str (s : String)
  | list (xs : List (Json F))
  | dict (items : List (String × Json F))

/-- How finite floats are written and read. -/
structure FloatText (F : Type) where
  repr : F → List Char
  float : List Char → F

/-- The text of `x` is a number with a fraction or an exponent, and reads back as `x`. -/
def FloatText.Exact {F : Type} (ft : FloatText F) (x : F) : Prop :=
  (∃ integer frac exp, scanNumber (ft.repr x) = some (integer, frac, exp, []) ∧
    integer ++ frac ++ exp = ft.repr x ∧ (frac ≠ [] ∨ exp ≠ [])) ∧ ft.float (ft.repr x) = x

namespace Json

variable {F : Type} (ft : FloatText F)

/-! ## Writing -/

/-- A string in its quotes. -/
def dumpsString (s : String) : List Char := '"' :: escape s.toList ++ ['"']

mutual

/-- `json.dumps`. -/
def dumps : Json F → List Char
  | .null => ['n', 'u', 'l', 'l']
  | .bool true => ['t', 'r', 'u', 'e']
  | .bool false => ['f', 'a', 'l', 's', 'e']
  | .int n => intText n
  | .float x => ft.repr x
  | .nan => ['N', 'a', 'N']
  | .infinity false => ['I', 'n', 'f', 'i', 'n', 'i', 't', 'y']
  | .infinity true => ['-', 'I', 'n', 'f', 'i', 'n', 'i', 't', 'y']
  | .str s => dumpsString s
  | .list xs => '[' :: dumpsList xs
  | .dict items => '\x7b' :: dumpsDict items

/-- A list, after its bracket… -/
def dumpsList : List (Json F) → List Char
  | [] => [']']
  | x :: xs => dumps x ++ dumpsTail xs

/-- …and after its first value. -/
def dumpsTail : List (Json F) → List Char
  | [] => [']']
  | x :: xs => ',' :: ' ' :: (dumps x ++ dumpsTail xs)

/-- A dictionary, after its bracket… -/
def dumpsDict : List (String × Json F) → List Char
  | [] => ['\x7d']
  | (k, v) :: items => dumpsString k ++ ':' :: ' ' :: (dumps v ++ dumpsItems items)

/-- …and after its first item. -/
def dumpsItems : List (String × Json F) → List Char
  | [] => ['\x7d']
  | (k, v) :: items =>
      ',' :: ' ' :: (dumpsString k ++ ':' :: ' ' :: (dumps v ++ dumpsItems items))

end

/-! ## Reading -/

/-- The characters of `WHITESPACE`. -/
def isSpace (c : Char) : Bool := c = ' ' || c = '\t' || c = '\n' || c = '\r'

/-- `_w(s, end).end()`. -/
def skipSpace (s : List Char) : List Char := s.dropWhile isSpace

/-- A number, or one of the constants Python adds. -/
def scanConstant (s : List Char) : Option (Json F × List Char) :=
  match scanNumber s with
  | some (integer, frac, exp, s) =>
      if frac ≠ [] ∨ exp ≠ [] then some (.float (ft.float (integer ++ frac ++ exp)), s)
      else some (.int (readInt integer), s)
  | none =>
      if ['N', 'a', 'N'] <+: s then some (.nan, s.drop 3)
      else if ['I', 'n', 'f', 'i', 'n', 'i', 't', 'y'] <+: s then some (.infinity false, s.drop 8)
      else if ['-', 'I', 'n', 'f', 'i', 'n', 'i', 't', 'y'] <+: s then
        some (.infinity true, s.drop 9)
      else none

mutual

/-- `scan_once`; `fuel` bounds the text. -/
def scanOnce : ℕ → List Char → Option (Json F × List Char)
  | fuel + 1, c :: s =>
      if c = '"' then (scanString fuel s).map fun (cs, s) => (.str (String.ofList cs), s)
      else if c = '\x7b' then
        match skipSpace s with
        | [] => none
        | d :: s =>
            if d = '\x7d' then some (.dict [], s)
            else if d = '"' then (scanItems fuel s).map fun (items, s) =>
              (.dict (Dict.ofPairs items).items, s)
            else none
      else if c = '[' then
        match skipSpace s with
        | [] => none
        | d :: s =>
            if d = ']' then some (.list [], s)
            else (scanList fuel (d :: s)).map fun (xs, s) => (.list xs, s)
      else if ['n', 'u', 'l', 'l'] <+: c :: s then some (.null, s.drop 3)
      else if ['t', 'r', 'u', 'e'] <+: c :: s then some (.bool true, s.drop 3)
      else if ['f', 'a', 'l', 's', 'e'] <+: c :: s then some (.bool false, s.drop 4)
      else scanConstant ft (c :: s)
  | _, _ => none

/-- `JSONArray`, from a value on. -/
def scanList : ℕ → List Char → Option (List (Json F) × List Char)
  | fuel + 1, s => do
      let (x, s) ← scanOnce fuel s
      match skipSpace s with
      | [] => none
      | d :: s =>
          if d = ']' then return ([x], s)
          else if d = ',' then do
            let (xs, s) ← scanList fuel (skipSpace s)
            return (x :: xs, s)
          else none
  | 0, _ => none

/-- `JSONObject`, from a key on, after its opening quote. -/
def scanItems : ℕ → List Char → Option (List (String × Json F) × List Char)
  | fuel + 1, s => do
      let (k, s) ← scanString fuel s
      match skipSpace s with
      | [] => none
      | c :: s =>
          if c = ':' then do
            let (v, s) ← scanOnce fuel (skipSpace s)
            match skipSpace s with
            | [] => none
            | d :: s =>
                if d = '\x7d' then return ([(String.ofList k, v)], s)
                else if d = ',' then
                  match skipSpace s with
                  | [] => none
                  | e :: s =>
                      if e = '"' then do
                        let (items, s) ← scanItems fuel s
                        return ((String.ofList k, v) :: items, s)
                      else none
                else none
          else none
  | 0, _ => none

end

/-- `json.loads`; `none` where it raises. -/
def loads (s : List Char) : Option (Json F) :=
  match scanOnce ft (s.length + 1) (skipSpace s) with
  | some (v, s) => if skipSpace s = [] then some v else none
  | none => none

/-! ## Values that are JSON

`json.dumps` writes a NaN and the infinities by names that JSON does not have; told not to, it
refuses them. -/

mutual

/-- What `json.dumps(…, allow_nan=False)` writes: no NaN and no infinity anywhere. -/
def compliant : Json F → Bool
  | .nan | .infinity _ => false
  | .list xs => compliantList xs
  | .dict items => compliantItems items
  | _ => true

/-- All values of a list are. -/
def compliantList : List (Json F) → Bool
  | [] => true
  | x :: xs => compliant x && compliantList xs

/-- All values of a dictionary are. -/
def compliantItems : List (String × Json F) → Bool
  | [] => true
  | (_, v) :: items => compliant v && compliantItems items

end

/-! ## Values that survive -/

mutual

/-- Keys are distinct, and floats are written exactly. -/
def Faithful : Json F → Prop
  | .float x => ft.Exact x
  | .list xs => FaithfulList xs
  | .dict items => (items.map Prod.fst).Nodup ∧ FaithfulItems items
  | _ => True

/-- All values of a list are. -/
def FaithfulList : List (Json F) → Prop
  | [] => True
  | x :: xs => Faithful x ∧ FaithfulList xs

/-- All values of a dictionary are. -/
def FaithfulItems : List (String × Json F) → Prop
  | [] => True
  | (_, v) :: items => Faithful v ∧ FaithfulItems items

end

/-! ## The first character of a value -/

section Heads

variable {ft}

/-- What begins with another character than a quote, a bracket or a keyword is a number. -/
theorem scanOnce_eq_scanConstant {c : Char} (hc : c ∉ ['"', '\x7b', '[', 'n', 't', 'f'])
    (fuel : ℕ) (s : List Char) : scanOnce ft (fuel + 1) (c :: s) = scanConstant ft (c :: s) := by
  simp only [List.mem_cons, List.not_mem_nil, or_false, not_or] at hc
  obtain ⟨hquote, hbrace, hbracket, hn, ht, hf⟩ := hc
  have hnull : ¬ ['n', 'u', 'l', 'l'] <+: c :: s := by simp [Ne.symm hn]
  have htrue : ¬ ['t', 'r', 'u', 'e'] <+: c :: s := by simp [Ne.symm ht]
  have hfalse : ¬ ['f', 'a', 'l', 's', 'e'] <+: c :: s := by simp [Ne.symm hf]
  rw [scanOnce, if_neg hquote, if_neg hbrace, if_neg hbracket, if_neg hnull, if_neg htrue,
    if_neg hfalse]

/-- The first character of a number. -/
def OpensNumber (c : Char) : Prop := c = '-' ∨ c.isDigit = true

theorem exists_opensNumber {t : List Char}
    {r : List Char × List Char × List Char × List Char} (h : scanNumber t = some r) :
    ∃ c t', t = c :: t' ∧ OpensNumber c := by
  cases t with
  | nil => simp [scanNumber, scanInteger] at h
  | cons c t =>
    refine ⟨c, t, rfl, ?_⟩
    by_contra hc
    obtain ⟨hminus, hdigit⟩ := not_or.mp hc
    have hzero : c ≠ '0' := by
      rintro rfl
      exact hdigit rfl
    simp [scanNumber, scanInteger, scanNatural, hminus, hdigit, hzero] at h

theorem OpensNumber.notMem {c : Char} (h : OpensNumber c) {l : List Char}
    (hl : ∀ d ∈ l, d ≠ '-' ∧ d.isDigit = false) : c ∉ l := by
  intro hc
  obtain ⟨hminus, hdigit⟩ := hl c hc
  rcases h with h | h
  · exact hminus h
  · rw [hdigit] at h
    exact absurd h (by decide)

/-- The first character of a value is neither white space nor a closing bracket. -/
def Opens (c : Char) : Prop := c ∉ [' ', '\t', '\n', '\r', ']']

instance (c : Char) : Decidable (Opens c) := inferInstanceAs (Decidable (¬ _))

theorem OpensNumber.opens {c : Char} (h : OpensNumber c) : Opens c := h.notMem (by simp)

theorem Opens.skipSpace {c : Char} (h : Opens c) (s : List Char) :
    skipSpace (c :: s) = c :: s := by
  simp only [Opens, List.mem_cons, List.not_mem_nil, or_false, not_or] at h
  simp [Json.skipSpace, isSpace, h]

theorem exists_opens {v : Json F} (h : v.Faithful ft) : ∃ c t, dumps ft v = c :: t ∧ Opens c := by
  cases v with
  | null => exact ⟨_, _, rfl, by decide⟩
  | bool b => cases b <;> exact ⟨_, _, rfl, by decide⟩
  | int n =>
    obtain ⟨c, t, heq, hc⟩ := exists_opensNumber (scanNumber_intText n)
    exact ⟨c, t, heq, hc.opens⟩
  | float x =>
    obtain ⟨⟨_, _, _, hscan, -⟩, -⟩ := h
    obtain ⟨c, t, heq, hc⟩ := exists_opensNumber hscan
    exact ⟨c, t, heq, hc.opens⟩
  | nan => exact ⟨_, _, rfl, by decide⟩
  | infinity negative => cases negative <;> exact ⟨_, _, rfl, by decide⟩
  | str s => exact ⟨_, _, rfl, by decide⟩
  | list xs => exact ⟨_, _, rfl, by decide⟩
  | dict items => exact ⟨_, _, rfl, by decide⟩

theorem skipSpace_dumps {v : Json F} (h : v.Faithful ft) (s : List Char) :
    skipSpace (dumps ft v ++ s) = dumps ft v ++ s := by
  obtain ⟨c, t, heq, hc⟩ := exists_opens h
  rw [heq, List.cons_append, hc.skipSpace]

theorem skipSpace_comma (s : List Char) : skipSpace (',' :: s) = ',' :: s := rfl

theorem skipSpace_colon (s : List Char) : skipSpace (':' :: s) = ':' :: s := rfl

theorem skipSpace_quote (s : List Char) : skipSpace ('"' :: s) = '"' :: s := rfl

theorem skipSpace_blank (s : List Char) : skipSpace (' ' :: s) = skipSpace s := rfl

end Heads

/-! ## Numbers and constants -/

section Scalars

variable {ft} {s : List Char} (hs : Closes s) (fuel : ℕ)

include hs

theorem scanOnce_int (n : ℤ) : scanOnce ft (fuel + 1) (intText n ++ s) = some (.int n, s) := by
  have hscan := scanNumber_append hs (scanNumber_intText n)
  obtain ⟨c, t, heq, hc⟩ := exists_opensNumber hscan
  rw [heq, scanOnce_eq_scanConstant (hc.notMem (by simp)), ← heq, scanConstant, hscan]
  simp [readInt_intText]

theorem scanOnce_float {x : F} (hx : ft.Exact x) :
    scanOnce ft (fuel + 1) (ft.repr x ++ s) = some (.float x, s) := by
  obtain ⟨⟨integer, frac, exp, hnumber, hparts, hfloat⟩, hread⟩ := hx
  have hscan := scanNumber_append hs hnumber
  obtain ⟨c, t, heq, hc⟩ := exists_opensNumber hscan
  rw [heq, scanOnce_eq_scanConstant (hc.notMem (by simp)), ← heq, scanConstant, hscan]
  simp only [if_pos hfloat, hparts, hread]

omit hs in
theorem scanOnce_nan (s : List Char) :
    scanOnce ft (fuel + 1) (['N', 'a', 'N'] ++ s) = some (.nan, s) := by
  have hscan : scanNumber ('N' :: 'a' :: 'N' :: s) = none := by
    simp [scanNumber, scanInteger, scanNatural]
  refine (scanOnce_eq_scanConstant (by simp) fuel ('a' :: 'N' :: s)).trans ?_
  simp [scanConstant, hscan]

omit hs in
theorem scanOnce_infinity (negative : Bool) (s : List Char) :
    scanOnce ft (fuel + 1) (dumps ft (.infinity negative) ++ s) = some (.infinity negative, s) := by
  cases negative with
  | false =>
    have hscan : scanNumber ('I' :: 'n' :: 'f' :: 'i' :: 'n' :: 'i' :: 't' :: 'y' :: s) =
        none := by
      simp [scanNumber, scanInteger, scanNatural]
    refine (scanOnce_eq_scanConstant (by simp) fuel _).trans ?_
    simp [scanConstant, hscan]
  | true =>
    have hscan : scanNumber ('-' :: 'I' :: 'n' :: 'f' :: 'i' :: 'n' :: 'i' :: 't' :: 'y' :: s) =
        none := by
      simp [scanNumber, scanInteger, scanNatural]
    refine (scanOnce_eq_scanConstant (by simp) fuel _).trans ?_
    simp [scanConstant, hscan]

end Scalars

/-! ## Reading what was written -/

section RoundTrip

variable {ft}

theorem dumps_ne_nil {v : Json F} (h : v.Faithful ft) : dumps ft v ≠ [] := by
  obtain ⟨c, t, heq, -⟩ := exists_opens h
  simp [heq]

theorem length_pos_dumps {v : Json F} (h : v.Faithful ft) : 0 < (dumps ft v).length :=
  List.length_pos_of_ne_nil (dumps_ne_nil h)

theorem closes_dumpsTail (xs : List (Json F)) (s : List Char) : Closes (dumpsTail ft xs ++ s) := by
  cases xs <;> simp [dumpsTail, Closes]

theorem closes_dumpsItems (items : List (String × Json F)) (s : List Char) :
    Closes (dumpsItems ft items ++ s) := by
  cases items with
  | nil => simp [dumpsItems, Closes]
  | cons item items => simp [dumpsItems, Closes]

mutual

/-- **What `dumps` writes, `scan_once` reads**, up to what follows it… -/
theorem scanOnce_dumps : ∀ (v : Json F) (fuel : ℕ) (s : List Char), v.Faithful ft →
    (dumps ft v).length ≤ fuel → Closes s → scanOnce ft fuel (dumps ft v ++ s) = some (v, s)
  | v, 0, s, hv, hfuel, _ => absurd hfuel (Nat.not_le.mpr (length_pos_dumps hv))
  | .null, fuel + 1, s, _, _, _ => by simp [dumps, scanOnce]
  | .bool true, fuel + 1, s, _, _, _ => by simp [dumps, scanOnce]
  | .bool false, fuel + 1, s, _, _, _ => by simp [dumps, scanOnce]
  | .int n, fuel + 1, s, _, _, hs => scanOnce_int hs fuel n
  | .float x, fuel + 1, s, hx, _, hs => scanOnce_float hs fuel hx
  | .nan, fuel + 1, s, _, _, _ => scanOnce_nan fuel s
  | .infinity negative, fuel + 1, s, _, _, _ => scanOnce_infinity fuel negative s
  | .str cs, fuel + 1, s, _, hfuel, _ => by
    simp only [dumps, dumpsString, List.length_append, List.length_cons] at hfuel
    have hfuel' : (escape cs.toList).length < fuel := by omega
    have hstring := scanString_escape cs.toList hfuel' s
    simp [dumps, dumpsString, scanOnce, hstring]
  | .list [], fuel + 1, s, _, _, _ => by simp [dumps, dumpsList, scanOnce, skipSpace, isSpace]
  | .list (x :: xs), fuel + 1, s, hv, hfuel, _ => by
    simp only [dumps, List.length_cons] at hfuel
    have hlist := scanList_dumpsList x xs fuel s hv (by omega)
    obtain ⟨c, t, heq, hc⟩ := exists_opens hv.1
    have hbracket : c ≠ ']' := by
      rintro rfl
      exact absurd hc (by decide)
    simp only [dumpsList, heq, List.cons_append, List.append_assoc] at hlist
    simp [dumps, dumpsList, scanOnce, heq, hc.skipSpace, hbracket, hlist]
  | .dict [], fuel + 1, s, _, _, _ => by simp [dumps, dumpsDict, scanOnce, skipSpace, isSpace]
  | .dict ((k, v) :: items), fuel + 1, s, hv, hfuel, _ => by
    simp only [dumps, List.length_cons] at hfuel
    have hitems := scanItems_dumpsDict k v items fuel s hv.2 (by omega)
    have hnodup := Dict.items_ofPairs hv.1
    simp [dumps, dumpsDict, dumpsString, scanOnce, skipSpace, isSpace, hitems, hnodup]

/-- …a list, from its first value on… -/
theorem scanList_dumpsList : ∀ (x : Json F) (xs : List (Json F)) (fuel : ℕ) (s : List Char),
    FaithfulList ft (x :: xs) → (dumpsList ft (x :: xs)).length ≤ fuel →
      scanList ft fuel (dumpsList ft (x :: xs) ++ s) = some (x :: xs, s)
  | x, xs, 0, s, h, hfuel => by
    have hpos := length_pos_dumps h.1
    simp only [dumpsList, List.length_append] at hfuel
    omega
  | x, [], fuel + 1, s, h, hfuel => by
    simp only [dumpsList, dumpsTail, List.length_append, List.length_singleton] at hfuel
    have hx := scanOnce_dumps x fuel (']' :: s) h.1 (by omega) (.inr (.inl rfl))
    simp [dumpsList, dumpsTail, scanList, hx, skipSpace, isSpace]
  | x, y :: ys, fuel + 1, s, h, hfuel => by
    have hpos := length_pos_dumps h.1
    simp only [dumpsList, dumpsTail, List.length_append, List.length_cons] at hfuel
    have hx := scanOnce_dumps x fuel (dumpsTail ft (y :: ys) ++ s) h.1 (by omega)
      (closes_dumpsTail _ _)
    have hys := scanList_dumpsList y ys fuel s h.2
      (by simp only [dumpsList, List.length_append]; omega)
    simp only [dumpsList, dumpsTail, List.cons_append, List.append_assoc] at hx hys ⊢
    simp only [scanList, hx, Option.bind_eq_bind, Option.bind_some, skipSpace_comma,
      skipSpace_blank, skipSpace_dumps h.2.1, hys]
    rfl

/-- …and a dictionary, from its first key on. -/
theorem scanItems_dumpsDict : ∀ (k : String) (v : Json F) (items : List (String × Json F))
    (fuel : ℕ) (s : List Char), FaithfulItems ft ((k, v) :: items) →
      (dumpsDict ft ((k, v) :: items)).length ≤ fuel →
      scanItems ft fuel (escape k.toList ++
        '"' :: ':' :: ' ' :: (dumps ft v ++ (dumpsItems ft items ++ s))) = some ((k, v) :: items, s)
  | k, v, items, 0, s, h, hfuel => by
    simp [dumpsDict] at hfuel
  | k, v, [], fuel + 1, s, h, hfuel => by
    simp only [dumpsDict, dumpsString, dumpsItems, List.length_append, List.length_cons,
      List.length_nil] at hfuel
    have hk := scanString_escape k.toList (show (escape k.toList).length < fuel by omega)
      (':' :: ' ' :: (dumps ft v ++ ('\x7d' :: s)))
    have hv := scanOnce_dumps v fuel ('\x7d' :: s) h.1 (by omega) (.inr (.inr rfl))
    simp only [dumpsItems, List.cons_append, List.nil_append, scanItems, hk, Option.bind_eq_bind,
      Option.bind_some, skipSpace_colon, skipSpace_blank, skipSpace_dumps h.1, hv]
    simp [skipSpace, isSpace]
  | k, v, (k', v') :: items, fuel + 1, s, h, hfuel => by
    have hpos := length_pos_dumps h.1
    simp only [dumpsDict, dumpsString, dumpsItems, List.length_append, List.length_cons,
      List.length_nil] at hfuel
    have hk := scanString_escape k.toList (show (escape k.toList).length < fuel by omega)
      (':' :: ' ' :: (dumps ft v ++ (dumpsItems ft ((k', v') :: items) ++ s)))
    have hv := scanOnce_dumps v fuel (dumpsItems ft ((k', v') :: items) ++ s) h.1 (by omega)
      (closes_dumpsItems _ _)
    have hitems := scanItems_dumpsDict k' v' items fuel s h.2
      (by simp only [dumpsDict, dumpsString, List.length_append, List.length_cons,
        List.length_nil]; omega)
    simp only [scanItems, hk, Option.bind_eq_bind, Option.bind_some, skipSpace_colon,
      skipSpace_blank, skipSpace_dumps h.1, hv]
    simp only [dumpsItems, dumpsString, List.cons_append, List.append_assoc, List.nil_append,
      skipSpace_comma, skipSpace_blank, skipSpace_quote, hitems]
    simp

end

/-- **Round trip**: what `json.dumps` writes of a faithful value, `json.loads` reads. -/
theorem loads_dumps {v : Json F} (h : v.Faithful ft) : loads ft (dumps ft v) = some v := by
  have hscan := scanOnce_dumps v ((dumps ft v).length + 1) [] h (Nat.le_succ _) trivial
  have hspace := skipSpace_dumps h []
  rw [List.append_nil] at hscan hspace
  rw [loads, hspace, hscan]
  rfl

/-! ### One line -/

theorem printable_dumpsString (s : String) : ∀ d ∈ dumpsString s, Printable d := by
  have hquote : Printable '"' := by decide
  simpa [dumpsString, hquote, or_imp, forall_and] using printable_escape s.toList

theorem printable_item (k : String) {v rest : List Char} (hv : ∀ d ∈ v, Printable d)
    (hrest : ∀ d ∈ rest, Printable d) :
    ∀ d ∈ dumpsString k ++ ':' :: ' ' :: (v ++ rest), Printable d :=
  List.forall_mem_append.mpr ⟨printable_dumpsString k, List.forall_mem_cons.mpr
    ⟨by decide, List.forall_mem_cons.mpr ⟨by decide, List.forall_mem_append.mpr ⟨hv, hrest⟩⟩⟩⟩

mutual

/-- **`dumps` writes printable characters only**, so no line ends in what it writes. -/
theorem printable_dumps : ∀ v : Json F, v.Faithful ft → ∀ d ∈ dumps ft v, Printable d
  | .null, _ => printable_of_all (by simp only [dumps]; decide)
  | .bool true, _ => printable_of_all (by simp only [dumps]; decide)
  | .bool false, _ => printable_of_all (by simp only [dumps]; decide)
  | .int n, _ => printable_intText n
  | .float x, h => by
    obtain ⟨⟨integer, frac, exp, hscan, heq, -⟩, -⟩ := h
    rw [dumps, ← heq]
    exact printable_scanNumber hscan
  | .nan, _ => printable_of_all (by simp only [dumps]; decide)
  | .infinity true, _ => printable_of_all (by simp only [dumps]; decide)
  | .infinity false, _ => printable_of_all (by simp only [dumps]; decide)
  | .str s, _ => printable_dumpsString s
  | .list [], _ => printable_of_all (by simp only [dumps, dumpsList]; decide)
  | .list (x :: xs), h => by
    rw [dumps, dumpsList]
    exact List.forall_mem_cons.mpr ⟨by decide, List.forall_mem_append.mpr
      ⟨printable_dumps x h.1, printable_dumpsTail xs h.2⟩⟩
  | .dict [], _ => printable_of_all (by simp only [dumps, dumpsDict]; decide)
  | .dict ((k, v) :: items), h => by
    rw [dumps, dumpsDict]
    exact List.forall_mem_cons.mpr ⟨by decide,
      printable_item k (printable_dumps v h.2.1) (printable_dumpsItems items h.2.2)⟩

theorem printable_dumpsTail :
    ∀ xs : List (Json F), FaithfulList ft xs → ∀ d ∈ dumpsTail ft xs, Printable d
  | [], _ => printable_of_all (by simp only [dumpsTail]; decide)
  | x :: xs, h => by
    rw [dumpsTail]
    exact List.forall_mem_cons.mpr ⟨by decide, List.forall_mem_cons.mpr ⟨by decide,
      List.forall_mem_append.mpr ⟨printable_dumps x h.1, printable_dumpsTail xs h.2⟩⟩⟩

theorem printable_dumpsItems :
    ∀ items : List (String × Json F), FaithfulItems ft items →
      ∀ d ∈ dumpsItems ft items, Printable d
  | [], _ => printable_of_all (by simp only [dumpsItems]; decide)
  | (k, v) :: items, h => by
    rw [dumpsItems]
    exact List.forall_mem_cons.mpr ⟨by decide, List.forall_mem_cons.mpr ⟨by decide,
      printable_item k (printable_dumps v h.1) (printable_dumpsItems items h.2)⟩⟩

end

end RoundTrip

end Json

end Machinery
