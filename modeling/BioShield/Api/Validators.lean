import BioShield.Api.VoiceAudit
import BioShield.Machinery.Regex

/-!
# Api/Validators — the input validators (`api/utils/validators.py`)

Both accept a little more than they document.  The end anchor of the identity pattern lets one final
newline through (`validateChannelIdentity_iff`), and a range check that rejects what lies outside
lets a NaN through, which lies nowhere; there the sample validator agrees with the payload model,
which asks the same question (`validateFrequencyDeltas_iff`).  A signed zero is the zero: neither
validator does more with a float than compare it, or print one it rejects.
-/

namespace BioShield

open Machinery

/-! ## Channel identities -/

/-- `[a-zA-Z0-9_\-\.]`. -/
def channelClass (c : Char) : Bool :=
  'a' ≤ c && c ≤ 'z' || 'A' ≤ c && c ≤ 'Z' || '0' ≤ c && c ≤ '9' || c = '_' || c = '-' || c = '.'

/-- `re.match(r'^[a-zA-Z0-9_\-\.]+$', channel)`. -/
def channelMatch (channel : String) : Bool :=
  Regex.matchAt '\n' [.bol, .plus channelClass, .eol] true channel.toList

/-- `Validators.validate_channel_identity`. -/
def validateChannelIdentity (channel : String) : Bool × String :=
  if channel = "" then (false, "Empty channel identity")
  else if 100 < channel.length then
    (false, s!"Channel identity too long: {channel.length} (max 100)")
  else if !channelMatch channel then
    (false, s!"Invalid characters in channel identity: {channel}")
  else (true, "Valid")

/-- An ASCII letter or digit, an underscore, a hyphen or a dot. -/
def IdentityChar (c : Char) : Prop := c.isAlphanum ∨ c = '_' ∨ c = '-' ∨ c = '.'

/-- The documented language. -/
def ChannelIdentity (s : String) : Prop :=
  1 ≤ s.length ∧ s.length ≤ 100 ∧ ∀ c ∈ s.toList, IdentityChar c

theorem channelClass_iff (c : Char) : channelClass c ↔ IdentityChar c := by
  simp only [channelClass, IdentityChar, Char.isAlphanum, Char.isAlpha, Char.isUpper, Char.isLower,
    Char.isDigit, Bool.or_eq_true, Bool.and_eq_true, decide_eq_true_eq, Char.le_def, ge_iff_le,
    or_assoc]
  exact or_left_comm

theorem not_identityChar_newline : ¬ IdentityChar '\n' := by
  rw [← channelClass_iff]
  decide

/-- The pattern accepts the characters it names, and one newline after them. -/
theorem channelMatch_iff (channel : String) : channelMatch channel = true ↔
    ∃ u, u ≠ [] ∧ (∀ c ∈ u, IdentityChar c) ∧
      (channel.toList = u ∨ channel.toList = u ++ ['\n']) := by
  simp only [channelMatch, Regex.matchAt_line_iff, channelClass_iff]

/-- What is accepted is the documented language, and its members of up to 99 characters with a
newline after them. -/
theorem accepts_channel_iff (channel : String) : (validateChannelIdentity channel).1 = true ↔
    ChannelIdentity channel ∨
      ∃ u : String, channel = u ++ "\n" ∧ ChannelIdentity u ∧ u.length ≤ 99 := by
  have haccepts : (validateChannelIdentity channel).1 = true ↔
      channel ≠ "" ∧ channel.length ≤ 100 ∧ channelMatch channel = true := by
    rw [validateChannelIdentity]
    split_ifs <;> simp_all
  have hpos : ∀ s : String, s.toList ≠ [] ↔ 1 ≤ s.length := fun s => by
    rw [← String.length_toList, Nat.one_le_iff_ne_zero, Ne, Ne, List.length_eq_zero_iff]
  rw [haccepts, channelMatch_iff]
  constructor
  · rintro ⟨-, hlen, u, hne, hall, heq | heq⟩
    · exact .inl ⟨(hpos _).mp (heq ▸ hne), hlen, heq ▸ hall⟩
    · have hlen' : channel.length = u.length + 1 := by
        rw [← String.length_toList, heq, List.length_append, List.length_singleton]
      have hone : 1 ≤ u.length := List.length_pos_iff.mpr hne
      refine .inr ⟨.ofList u, String.toList_inj.mp (by simp [heq]), ⟨?_, ?_, ?_⟩, ?_⟩
      · rwa [String.length_ofList]
      · rw [String.length_ofList]
        omega
      · simpa using hall
      · rw [String.length_ofList]
        omega
  · rintro (⟨hone, hlen, hall⟩ | ⟨u, rfl, ⟨hone, -, hall⟩, hlen⟩)
    · exact ⟨by rintro rfl; simp at hone, hlen, channel.toList, (hpos _).mpr hone, hall, .inl rfl⟩
    · have hlen' : (u ++ "\n").length = u.length + 1 := by
        rw [String.length_append]
        rfl
      exact ⟨by simp, by omega, u.toList, (hpos _).mpr hone, hall, .inr (by simp)⟩

/-- **Where the identity validator keeps to its language**: it accepts what it documents and nothing
else, except at a documented identity of up to 99 characters with a newline after it. -/
theorem validateChannelIdentity_iff (channel : String) :
    ((validateChannelIdentity channel).1 = true ↔ ChannelIdentity channel) ↔
      ¬ ∃ u : String, channel = u ++ "\n" ∧ ChannelIdentity u ∧ u.length ≤ 99 := by
  rw [accepts_channel_iff]
  constructor
  · rintro h ⟨u, rfl, hu, hlen⟩
    have hnewline := (h.mp (.inr ⟨u, rfl, hu, hlen⟩)).2.2 '\n' (by simp)
    exact not_identityChar_newline hnewline
  · exact fun h => or_iff_left h

/-- The validator accepts a newline at the end. -/
theorem not_forall_validateChannelIdentity :
    ¬ ∀ channel : String, (validateChannelIdentity channel).1 = true ↔ ChannelIdentity channel := by
  intro h
  have hidentity := (h "a\n").mp (by decide)
  exact not_identityChar_newline (hidentity.2.2 '\n' (by decide))

/-! ## Samples -/

namespace PyFloat

/-- `x <= y`: false as soon as one side is a NaN. -/
def le : PyFloat → PyFloat → Bool
  | .finite p, .finite q => p ≤ q
  | .finite _, .inf negative => !negative
  | .inf negative, .finite _ => negative
  | .inf negative, .inf negative' => negative || !negative'
  | .nan, _ | _, .nan => false

/-- Apart from NaNs, `x <= y` is `not y < x`. -/
theorem le_eq_not_lt {x y : PyFloat} (hx : x ≠ .nan) (hy : y ≠ .nan) : x.le y = !y.lt x := by
  cases x <;> cases y <;> simp_all [le, lt, Bool.or_comm, ← not_lt]

end PyFloat

/-- `x < 0 or x > 10`. -/
def outOfRange (x : PyFloat) : Bool := x.lt (.finite 0) || (PyFloat.finite 10).lt x

/-- The loop of `Validators.validate_frequency_deltas` from index `i` on. -/
def checkValues (str : PyFloat → String) : ℕ → List PyFloat → Bool × String
  | _, [] => (true, "Valid")
  | i, val :: deltas =>
    if outOfRange val then
      (false, s!"Invalid value at index {i}: {str val} (must be 0-10)")
    else checkValues str (i + 1) deltas

/-- `Validators.validate_frequency_deltas`; `str` prints a float. -/
def validateFrequencyDeltas (str : PyFloat → String) (deltas : List PyFloat) : Bool × String :=
  if deltas = [] then (false, "Empty frequency array")
  else if deltas.length < 10 then
    (false, s!"Insufficient samples: {deltas.length} (minimum 10)")
  else if 1000 < deltas.length then
    (false, s!"Too many samples: {deltas.length} (maximum 1000)")
  else checkValues str 0 deltas

/-- The payload model accepts the samples. -/
def AudioStreamPayload.Accepts (deltas : List PyFloat) : Prop :=
  ∃ payload : AudioStreamPayload, payload.frequencyAmplitudeDeltas = deltas

/-- The documented streams: 10 to 1000 samples between 0 and 10. -/
def SampleStream (deltas : List PyFloat) : Prop :=
  10 ≤ deltas.length ∧ deltas.length ≤ 1000 ∧
    ∀ x ∈ deltas, (PyFloat.finite 0).le x ∧ x.le (.finite 10)

section Samples

variable {str : PyFloat → String} {deltas : List PyFloat}

/-- A value that is not out of range is in range, unless it is a NaN. -/
theorem outOfRange_eq_false_iff (x : PyFloat) :
    outOfRange x = false ↔ x = .nan ∨ (PyFloat.finite 0).le x ∧ x.le (.finite 10) := by
  by_cases hx : x = .nan
  · subst hx
    exact iff_of_true rfl (.inl rfl)
  · rw [or_iff_right hx, PyFloat.le_eq_not_lt (by simp) hx, PyFloat.le_eq_not_lt hx (by simp)]
    simp [outOfRange]

theorem checkValues_iff (i : ℕ) :
    (checkValues str i deltas).1 = true ↔ ∀ x ∈ deltas, outOfRange x = false := by
  induction deltas generalizing i with
  | nil => simp [checkValues]
  | cons val deltas ih =>
    rw [checkValues, List.forall_mem_cons]
    by_cases h : outOfRange val
    · simp [h]
    · rw [if_neg h, ih, and_iff_right (Bool.eq_false_iff.mpr h)]

/-- The validator accepts 10 to 1000 samples none of which is out of range… -/
theorem validateFrequencyDeltas_fst : (validateFrequencyDeltas str deltas).1 = true ↔
    10 ≤ deltas.length ∧ deltas.length ≤ 1000 ∧ ∀ x ∈ deltas, outOfRange x = false := by
  rw [validateFrequencyDeltas]
  split_ifs with hempty hfew hmany
  · simp [hempty]
  · exact iff_of_false (by simp) fun h => absurd h.1 (not_le.mpr hfew)
  · exact iff_of_false (by simp) fun h => absurd h.2.1 (not_le.mpr hmany)
  · rw [checkValues_iff, and_iff_right (not_lt.mp hfew), and_iff_right (not_lt.mp hmany)]

/-- …and so does the payload model. -/
theorem AudioStreamPayload.accepts_iff : Accepts deltas ↔
    10 ≤ deltas.length ∧ deltas.length ≤ 1000 ∧ ∀ x ∈ deltas, outOfRange x = false := by
  have hany : ∀ xs : List PyFloat, (xs.any outOfRange) = false ↔
      ∀ x ∈ xs, outOfRange x = false := fun xs => by
    simp only [List.any_eq_false, Bool.not_eq_true]
  constructor
  · rintro ⟨payload, rfl⟩
    exact ⟨payload.minItems, payload.maxItems, (hany _).mp payload.validateDeltas⟩
  · rintro ⟨hmin, hmax, hrange⟩
    exact ⟨⟨"", "", deltas, by simp, by simp, hmin, hmax, (hany _).mpr hrange⟩, rfl⟩

/-- The documented streams are those without a NaN among the accepted ones. -/
theorem sampleStream_iff : SampleStream deltas ↔
    (10 ≤ deltas.length ∧ deltas.length ≤ 1000 ∧ ∀ x ∈ deltas, outOfRange x = false) ∧
      .nan ∉ deltas := by
  have hnan : ¬ ((PyFloat.finite 0).le .nan ∧ PyFloat.nan.le (.finite 10)) := by simp [PyFloat.le]
  rw [SampleStream, and_assoc, and_assoc]
  refine and_congr_right fun _ => and_congr_right fun _ => ?_
  constructor
  · exact fun h => ⟨fun x hx => (outOfRange_eq_false_iff x).mpr (.inr (h x hx)),
      fun hmem => hnan (h _ hmem)⟩
  · rintro ⟨h, hmem⟩ x hx
    exact ((outOfRange_eq_false_iff x).mp (h x hx)).resolve_left fun heq => hmem (heq ▸ hx)

/-- **Where the two sample validators keep to the documented range**: they always agree with each
other, and with it unless a stream of 10 to 1000 samples, none of them out of range, has a NaN. -/
theorem validateFrequencyDeltas_iff :
    (((validateFrequencyDeltas str deltas).1 = true ↔ AudioStreamPayload.Accepts deltas) ∧
      ((validateFrequencyDeltas str deltas).1 = true ↔ SampleStream deltas) ∧
      (AudioStreamPayload.Accepts deltas ↔ SampleStream deltas)) ↔
    .nan ∉ deltas ∨ deltas.length < 10 ∨ 1000 < deltas.length ∨
      ∃ x ∈ deltas, x.lt (.finite 0) ∨ (PyFloat.finite 10).lt x := by
  have hrange : (∃ x ∈ deltas, x.lt (.finite 0) ∨ (PyFloat.finite 10).lt x) ↔
      ¬ ∀ x ∈ deltas, outOfRange x = false := by
    simp only [not_forall, Bool.not_eq_false, outOfRange, Bool.or_eq_true, exists_prop]
  rw [validateFrequencyDeltas_fst, AudioStreamPayload.accepts_iff, sampleStream_iff, hrange,
    ← not_le, ← not_le, ← not_and_or, ← not_and_or, ← imp_iff_or_not, iff_self, true_and, and_self,
    iff_self_and]

/-- Ten NaNs are accepted by both validators. -/
theorem not_forall_validateFrequencyDeltas :
    ¬ ∀ (str : PyFloat → String) (deltas : List PyFloat),
      ((validateFrequencyDeltas str deltas).1 = true ↔ AudioStreamPayload.Accepts deltas) ∧
        ((validateFrequencyDeltas str deltas).1 = true ↔ SampleStream deltas) ∧
        (AudioStreamPayload.Accepts deltas ↔ SampleStream deltas) := by
  intro h
  have hstream := (h (fun _ => "nan") (List.replicate 10 .nan)).2.1.mp (by decide)
  exact absurd (hstream.2.2 .nan (by decide)) (by decide)

end Samples

end BioShield
