import BioShield.Core.NicXdpPolicy

/-!
# Core/NicXdpPayload — what the packet filter takes for the payload

The filter steps over an IP header of twenty bytes and reads on to `data_end`.  With IP options in
the way it judges options and the UDP header; without, the padding behind a short payload.  The
layouts on which the payload alone decides are those without options in which no padding gets among
the first eight bytes (`judged_iff_flat`).
-/

namespace BioShield

namespace NicXdp

/-! ## Flat bytes -/

/-- All bytes are equal. -/
def Flat (bytes : List Byte) : Prop := ∀ b ∈ bytes, ∀ c ∈ bytes, b = c

instance (bytes : List Byte) : Decidable (Flat bytes) :=
  inferInstanceAs (Decidable (∀ b ∈ bytes, ∀ c ∈ bytes, b = c))

theorem flat_replicate (n : ℕ) (b : Byte) : Flat (List.replicate n b) := fun _ hc _ hd =>
  (List.eq_of_mem_replicate hc).trans (List.eq_of_mem_replicate hd).symm

theorem flat_of_length_le_one {bytes : List Byte} (h : bytes.length ≤ 1) : Flat bytes := by
  cases bytes with
  | nil => exact fun _ hb => absurd hb List.not_mem_nil
  | cons b bytes =>
    obtain rfl : bytes = [] := by simpa using h
    exact flat_replicate 1 b

theorem flat_cons_iff {b : Byte} {bytes : List Byte} :
    Flat (b :: bytes) ↔ ∀ c ∈ bytes, c = b := by
  constructor
  · exact fun h c hc => h c (.tail b hc) b List.mem_cons_self
  · intro h c hc d hd
    have heq : ∀ x ∈ b :: bytes, x = b := List.forall_mem_cons.mpr ⟨rfl, h⟩
    exact (heq c hc).trans (heq d hd).symm

theorem flat_append_iff {xs ys : List Byte} :
    Flat (xs ++ ys) ↔ Flat xs ∧ ∀ b ∈ ys, ∀ c ∈ xs ++ ys, b = c := by
  constructor
  · intro h
    exact ⟨fun b hb c hc => h b (List.mem_append_left ys hb) c (List.mem_append_left ys hc),
      fun b hb => h b (List.mem_append_right xs hb)⟩
  · rintro ⟨hxs, hys⟩ b hb c hc
    rcases List.mem_append.mp hb with hb | hb
    · rcases List.mem_append.mp hc with hc' | hc'
      · exact hxs b hb c hc'
      · exact (hys c hc' b (List.mem_append_left ys hb)).symm
    · exact hys b hb c hc

/-- The loop compares with the first byte… -/
theorem lowVarianceLoop_iff (first : Byte) (n : ℕ) (bytes : List Byte) :
    lowVarianceLoop first n bytes ↔ ∀ b ∈ bytes.take n, b = first := by
  induction n generalizing bytes with
  | zero => simp [lowVarianceLoop]
  | succ n ih =>
    cases bytes with
    | nil => simp [lowVarianceLoop]
    | cons byte bytes =>
      rw [lowVarianceLoop, List.take_succ_cons, List.forall_mem_cons, ← ih]
      split_ifs with hne
      · exact iff_of_false id fun h => hne h.1
      · exact (and_iff_right (not_not.mp hne)).symm

/-- The bytes that the filter judges. -/
def judgedBytes (data : List Byte) : List Byte := (data.drop 42).take 8

/-- …so **what the filter calls low variance is eight equal bytes at offset 42**, or as many as the
frame has. -/
theorem lowVariance_iff (data : List Byte) : lowVariance data ↔ Flat (judgedBytes data) := by
  rw [lowVariance, judgedBytes]
  cases data.drop 42 with
  | nil => simp [Flat]
  | cons first bytes =>
    rw [List.take_succ_cons, flat_cons_iff]
    exact lowVarianceLoop_iff first 7 bytes

/-- The source of a frame, if it has one, is not yet at the threshold. -/
def BelowThreshold (w : Maps) (data : List Byte) : Prop :=
  ∀ srcIp, sourceIp data = some srcIp → ¬ blockThreshold ≤ w.count srcIp

theorem belowThreshold_loaded (data : List Byte) : BelowThreshold .loaded data := by
  intro srcIp _
  rw [Maps.count_of_none rfl]
  decide

/-! ## Layouts -/

/-- How an Ethernet/IPv4/UDP frame is laid out: the words of its IP header, and the bytes of its UDP
payload and of the padding. -/
structure Layout where
  ihl : ℕ
  payloadLength : ℕ
  paddingLength : ℕ
  le_ihl : 5 ≤ ihl
  ihl_le : ihl ≤ 15
  payloadLength_lt : 8 + payloadLength < 2 ^ 16

namespace Layout

variable (l : Layout)

/-- Where the UDP header starts. -/
def udpOffset : ℕ := 14 + 4 * l.ihl

/-- The UDP payload. -/
def payload (data : List Byte) : List Byte :=
  (data.drop (l.udpOffset + 8)).take l.payloadLength

/-- The Ethernet padding. -/
def padding (data : List Byte) : List Byte := data.drop (l.udpOffset + 8 + l.payloadLength)

/-- A frame that is laid out so, by its version, its header length, its UDP length and its end. -/
structure Fits (data : List Byte) : Prop where
  source : (sourceIp data).isSome
  version : (byteAt data 14).toNat / 16 = 4
  ihl : (byteAt data 14).toNat % 16 = l.ihl
  udpLength : 256 * (byteAt data (l.udpOffset + 4)).toNat +
    (byteAt data (l.udpOffset + 5)).toNat = 8 + l.payloadLength
  length : data.length = l.udpOffset + 8 + l.payloadLength + l.paddingLength

/-- The padding that comes within eight bytes of the UDP header. -/
def paddingRead (data : List Byte) : List Byte := (l.padding data).take (8 - l.payloadLength)

/-- What is read of the padding behind a flat payload repeats it. -/
def PaddingRepeats (data : List Byte) : Prop :=
  Flat ((l.payload data).take 8) →
    ∀ b ∈ l.paddingRead data, ∀ c ∈ (l.payload data).take 8 ++ l.paddingRead data, b = c

/-- No options, and no padding within eight bytes of the UDP header; one byte of it behind an empty
payload does no harm. -/
def Plain : Prop :=
  l.ihl = 5 ∧ (8 ≤ l.payloadLength ∨ l.paddingLength = 0 ∨ l.payloadLength + l.paddingLength ≤ 1)

instance : Decidable l.Plain := inferInstanceAs (Decidable (_ ∧ _))

section Fits

variable {l} {w : Maps} {p : Packet} {data : List Byte}

theorem le_udpOffset : 34 ≤ l.udpOffset := by
  have := l.le_ihl
  rw [udpOffset]
  omega

theorem length_payload (h : l.Fits data) : (l.payload data).length = l.payloadLength := by
  have := h.length
  rw [payload, List.length_take, List.length_drop]
  omega

theorem length_padding (h : l.Fits data) : (l.padding data).length = l.paddingLength := by
  have := h.length
  rw [padding, List.length_drop]
  omega

/-- Below the threshold, the decision is about the bytes judged. -/
theorem judged_iff (h : l.Fits p.data) (hw : BelowThreshold w p.data) :
    judgedLowVariance w p ↔ Flat (judgedBytes p.data) := by
  obtain ⟨srcIp, hsrc⟩ := Option.isSome_iff_exists.mp h.source
  have hlen : ¬ p.data.length < 42 := by
    have := h.length
    have := l.le_udpOffset
    omega
  rw [judgedLowVariance_iff hsrc, ← lowVariance_iff]
  exact ⟨fun hj => hj.2.2, fun hlow => ⟨hw srcIp hsrc, hlen, hlow⟩⟩

/-- Without options, these are the payload and what is read of the padding… -/
theorem judgedBytes_eq (h : l.Fits data) (hihl : l.ihl = 5) :
    judgedBytes data = (l.payload data).take 8 ++ l.paddingRead data := by
  have hsplit : data.drop 42 = l.payload data ++ l.padding data := by
    have hoffset : l.udpOffset + 8 = 42 := by rw [udpOffset, hihl]
    rw [payload, padding, hoffset, ← List.drop_drop (l := data), List.take_append_drop]
  rw [judgedBytes, hsplit, List.take_append, length_payload h, paddingRead]

/-- …and the decision is right as long as the padding does not break up a flat payload. -/
theorem judged_iff_flat_iff (h : l.Fits p.data) (hihl : l.ihl = 5)
    (hw : BelowThreshold w p.data) :
    (judgedLowVariance w p ↔ Flat ((l.payload p.data).take 8)) ↔ l.PaddingRepeats p.data := by
  rw [judged_iff h hw, judgedBytes_eq h hihl, flat_append_iff]
  exact ⟨fun hiff hflat => (hiff.mpr hflat).2,
    fun hrepeats => ⟨fun hjudged => hjudged.1, fun hflat => ⟨hflat, hrepeats hflat⟩⟩⟩

/-- In a plain layout there is nothing for the padding to break up. -/
theorem Plain.paddingRepeats (hplain : l.Plain) (h : l.Fits data) : l.PaddingRepeats data := by
  intro _ b hb c hc
  have hpayload := length_payload h
  have hpadding := length_padding h
  obtain ⟨-, hlong | hnone | hfew⟩ := hplain
  · rw [paddingRead, Nat.sub_eq_zero_of_le hlong] at hb
    exact absurd hb List.not_mem_nil
  · rw [paddingRead, List.eq_nil_of_length_eq_zero (hpadding.trans hnone), List.take_nil] at hb
    exact absurd hb List.not_mem_nil
  · have hone : ((l.payload data).take 8 ++ l.paddingRead data).length ≤ 1 := by
      simp only [paddingRead, List.length_append, List.length_take]
      omega
    exact flat_of_length_le_one hone b (List.mem_append_right _ hb) c hc

/-- **In a plain layout the payload decides.** -/
theorem Plain.judged_iff (hplain : l.Plain) (h : l.Fits p.data) (hw : BelowThreshold w p.data) :
    judgedLowVariance w p ↔ Flat ((l.payload p.data).take 8) :=
  (judged_iff_flat_iff h hplain.1 hw).mpr (hplain.paddingRepeats h)

end Fits

/-! ## Frames of a layout -/

/-- The Ethernet header and the fixed part of the IP header; checksums are left out. -/
def header (srcIp : SourceIp) : List Byte :=
  [0x02, 0, 0, 0, 0, 2, 0x02, 0, 0, 0, 0, 1, 0x08, 0x00,
    .ofNat 8 (64 + l.ihl), 0, .ofNat 8 ((4 * l.ihl + 8 + l.payloadLength) / 256),
    .ofNat 8 (4 * l.ihl + 8 + l.payloadLength), 0, 0, 0, 0, 64, 17, 0, 0,
    srcIp.a, srcIp.b, srcIp.c, srcIp.d, 10, 0, 0, 2]

/-- Nine no-operations, then the end of the list. -/
def options : List Byte :=
  List.take (4 * (l.ihl - 5)) (List.replicate 9 1 ++ List.replicate 31 0)

/-- From port 5004 to port 5004, without a checksum. -/
def udpHeader : List Byte :=
  [0x13, 0x8c, 0x13, 0x8c, .ofNat 8 ((8 + l.payloadLength) / 256),
    .ofNat 8 (8 + l.payloadLength), 0, 0]

/-- The frame with a payload and some padding. -/
def frame (srcIp : SourceIp) (payload padding : List Byte) : Packet where
  cpu := 0
  data := l.header srcIp ++ l.options ++ l.udpHeader ++ (payload ++ padding)

section Frame

variable {l} {srcIp : SourceIp} {payload padding : List Byte}

@[simp] theorem length_options : l.options.length = 4 * (l.ihl - 5) := by
  have := l.ihl_le
  simp only [options, List.length_take, List.length_append, List.length_replicate]
  omega

theorem length_headers :
    (l.header srcIp ++ l.options ++ l.udpHeader).length = l.udpOffset + 8 := by
  have := l.le_ihl
  simp only [List.length_append, length_options, header, udpHeader, List.length_cons,
    List.length_nil, udpOffset]
  omega

theorem le_length_frame : l.udpOffset + 8 ≤ (l.frame srcIp payload padding).data.length := by
  rw [frame, List.length_append, length_headers]
  omega

/-- The payload is read back. -/
theorem payload_frame (hpayload : payload.length = l.payloadLength) :
    l.payload (l.frame srcIp payload padding).data = payload := by
  rw [Layout.payload, frame, List.drop_left' length_headers, ← hpayload, List.take_left]

theorem padding_frame (hpayload : payload.length = l.payloadLength) :
    l.padding (l.frame srcIp payload padding).data = padding := by
  rw [Layout.padding, frame, ← List.append_assoc, List.drop_left']
  rw [List.length_append, length_headers, hpayload]

theorem udpLength_udpHeader :
    256 * (byteAt l.udpHeader 4).toNat + (byteAt l.udpHeader 5).toNat = 8 + l.payloadLength := by
  have hlt := l.payloadLength_lt
  simp only [byteAt, udpHeader, List.getD_cons_succ, List.getD_cons_zero, BitVec.toNat_ofNat]
  omega

/-- A byte of the options… -/
theorem byteAt_options {i : ℕ} (hi : i < 4 * (l.ihl - 5)) :
    byteAt (l.frame srcIp payload padding).data (34 + i) =
      byteAt (List.replicate 9 1 ++ List.replicate 31 0) i := by
  have hip : (l.header srcIp).length = 34 := rfl
  have hopt : l.options.length = 4 * (l.ihl - 5) := length_options
  have hlen : 34 + i < (l.header srcIp ++ l.options).length := by
    rw [List.length_append]
    omega
  rw [byteAt, frame, List.append_assoc, List.getD_append _ _ _ _ hlen,
    List.getD_append_right _ _ _ _ (by omega), hip, Nat.add_sub_cancel_left, options, byteAt,
    List.getD_eq_getElem?_getD, List.getElem?_take_of_lt hi, ← List.getD_eq_getElem?_getD]

/-- …and one of the UDP header. -/
theorem byteAt_udpHeader {i : ℕ} (hi : i < 8) :
    byteAt (l.frame srcIp payload padding).data (l.udpOffset + i) = byteAt l.udpHeader i := by
  have hall : (l.header srcIp ++ l.options ++ l.udpHeader).length = _ := length_headers
  have hudp : l.udpHeader.length = 8 := rfl
  have hip : (l.header srcIp ++ l.options).length = l.udpOffset := by
    rw [List.length_append, hudp] at hall
    omega
  rw [byteAt, frame, List.getD_append _ _ _ _ (by omega),
    List.getD_append_right _ _ _ _ (by omega), hip, Nat.add_sub_cancel_left, byteAt]

theorem sourceIp_frame : sourceIp (l.frame srcIp payload padding).data = some srcIp := by
  have hlen : 34 ≤ (l.frame srcIp payload padding).data.length :=
    (l.le_udpOffset.trans (Nat.le_add_right _ 8)).trans le_length_frame
  have hproto : byteAt (l.frame srcIp payload padding).data 23 = 17 := rfl
  rw [sourceIp, if_neg (by omega), if_neg (not_not.mpr ⟨rfl, rfl⟩), if_neg (by omega),
    if_neg (not_not.mpr hproto)]
  rfl

theorem fits_frame (hpayload : payload.length = l.payloadLength)
    (hpadding : padding.length = l.paddingLength) :
    l.Fits (l.frame srcIp payload padding).data := by
  have hbyte : byteAt (l.frame srcIp payload padding).data 14 = .ofNat 8 (64 + l.ihl) := rfl
  have hle := l.le_ihl
  have hge := l.ihl_le
  have hlt := l.payloadLength_lt
  refine ⟨?_, ?_, ?_, ?_, ?_⟩
  · rw [sourceIp_frame, Option.isSome_some]
  · rw [hbyte, BitVec.toNat_ofNat]
    omega
  · rw [hbyte, BitVec.toNat_ofNat]
    omega
  · rw [byteAt_udpHeader (by decide), byteAt_udpHeader (by decide)]
    exact udpLength_udpHeader
  · rw [frame, List.length_append, length_headers, List.length_append, hpayload, hpadding]
    omega

/-- Two different bytes within the eight that are judged. -/
theorem not_flat_judgedBytes {data : List Byte} {i j : ℕ} (hi : 42 ≤ i ∧ i < 50)
    (hj : 42 ≤ j ∧ j < 50) (hilen : i < data.length) (hjlen : j < data.length)
    (hne : byteAt data i ≠ byteAt data j) : ¬ Flat (judgedBytes data) := by
  have hmem : ∀ k, 42 ≤ k ∧ k < 50 → k < data.length → byteAt data k ∈ judgedBytes data := by
    intro k hk hlen
    refine List.mem_iff_getElem.mpr ⟨k - 42, by simp [judgedBytes]; omega, ?_⟩
    simp only [judgedBytes, List.getElem_take, List.getElem_drop, byteAt]
    rw [List.getD_eq_getElem _ _ hlen]
    congr 1
    omega
  exact fun hflat => hne (hflat _ (hmem i hi hilen) _ (hmem j hj hjlen))

/-- Behind one or two words of options the filter reads the UDP length, which is not zero, and the
checksum, which is. -/
theorem not_flat_of_udpHeader (hoffset : l.udpOffset = 38 ∨ l.udpOffset = 42) :
    ¬ Flat (judgedBytes (l.frame srcIp payload padding).data) := by
  have hlen : l.udpOffset + 8 ≤ (l.frame srcIp payload padding).data.length := le_length_frame
  have hsum : byteAt l.udpHeader 6 = 0 := rfl
  by_cases hhi : byteAt l.udpHeader 4 = 0
  · refine not_flat_judgedBytes (i := l.udpOffset + 5) (j := l.udpOffset + 6) (by omega)
      (by omega) (by omega) (by omega) ?_
    rw [byteAt_udpHeader (by decide), byteAt_udpHeader (by decide), hsum]
    intro hlo
    have hzero := l.udpLength_udpHeader
    rw [hhi, hlo] at hzero
    exact absurd (show 0 = 8 + l.payloadLength from hzero) (by omega)
  · refine not_flat_judgedBytes (i := l.udpOffset + 4) (j := l.udpOffset + 6) (by omega)
      (by omega) (by omega) (by omega) ?_
    rwa [byteAt_udpHeader (by decide), byteAt_udpHeader (by decide), hsum]

/-- Behind more of them it reads options: the ninth is a no-operation, the tenth is not. -/
theorem not_flat_of_manyOptions (hihl : 8 ≤ l.ihl) :
    ¬ Flat (judgedBytes (l.frame srcIp payload padding).data) := by
  have hlen : l.udpOffset + 8 ≤ (l.frame srcIp payload padding).data.length := le_length_frame
  have hoffset : 46 ≤ l.udpOffset := by
    rw [udpOffset]
    omega
  refine not_flat_judgedBytes (i := 34 + 8) (j := 34 + 9) (by omega) (by omega) (by omega)
    (by omega) ?_
  rw [byteAt_options (by omega), byteAt_options (by omega)]
  decide

/-- **Options keep any payload from being judged.** -/
theorem not_flat_of_options (hihl : 5 < l.ihl) :
    ¬ Flat (judgedBytes (l.frame srcIp payload padding).data) := by
  rcases Nat.lt_or_ge l.ihl 8 with hfew | hmany
  · refine not_flat_of_udpHeader ?_
    rw [udpOffset]
    omega
  · exact not_flat_of_manyOptions hmany

/-- A flat payload, and padding that starts with another byte. -/
def brokenFrame (srcIp : SourceIp) : Packet :=
  l.frame srcIp (List.replicate l.payloadLength 0)
    (List.take l.paddingLength (1 :: List.replicate l.paddingLength 0))

theorem fits_brokenFrame : l.Fits (l.brokenFrame srcIp).data :=
  fits_frame List.length_replicate (by simp)

theorem payload_brokenFrame :
    l.payload (l.brokenFrame srcIp).data = List.replicate l.payloadLength 0 :=
  payload_frame List.length_replicate

/-- **Padding breaks up a flat payload** of less than eight bytes. -/
theorem not_flat_of_padding (hihl : l.ihl = 5) (hshort : l.payloadLength < 8)
    (hpad : l.paddingLength ≠ 0) (htwo : 2 ≤ l.payloadLength + l.paddingLength) :
    ¬ Flat (judgedBytes (l.brokenFrame srcIp).data) := by
  obtain ⟨m, hm⟩ : ∃ m, l.paddingLength = m + 1 := Nat.exists_eq_succ_of_ne_zero hpad
  obtain ⟨k, hk⟩ : ∃ k, 8 - l.payloadLength = k + 1 := ⟨7 - l.payloadLength, by omega⟩
  have hjudged : judgedBytes (l.brokenFrame srcIp).data =
      List.replicate (min 8 l.payloadLength) 0 ++
        1 :: List.replicate (min k (min m (m + 1))) 0 := by
    rw [judgedBytes_eq fits_brokenFrame hihl, payload_brokenFrame, paddingRead, brokenFrame,
      padding_frame List.length_replicate, hm, hk, List.take_succ_cons, List.take_succ_cons,
      List.take_replicate, List.take_replicate, List.take_replicate]
  rw [hjudged]
  intro hflat
  have hone : (1 : Byte) = 0 := hflat 1 (by simp) 0 (by simp; omega)
  exact absurd hone (by decide)

/-- In a layout that is not plain, its flat payload is misjudged. -/
theorem not_flat_brokenFrame (hplain : ¬ l.Plain) (srcIp : SourceIp) :
    ¬ Flat (judgedBytes (l.brokenFrame srcIp).data) := by
  have hle := l.le_ihl
  rcases Nat.lt_or_ge 5 l.ihl with hihl | hihl
  · exact not_flat_of_options hihl
  · simp only [Plain, not_and_or, not_or] at hplain
    exact not_flat_of_padding (by omega) (by omega) (by omega) (by omega)

end Frame

end Layout

/-! ## What the filter judges -/

/-- **The payload alone decides in the plain layouts**, those without options and without padding
within eight bytes of the UDP header, and in no other.  Short of options, a single frame is judged
right exactly if the padding that is read repeats a flat payload. -/
theorem judged_iff_flat (l : Layout) :
    ((∀ (w : Maps) (p : Packet), l.Fits p.data → BelowThreshold w p.data →
      (judgedLowVariance w p ↔ Flat ((l.payload p.data).take 8))) ↔ l.Plain) ∧
    (l.ihl = 5 → ∀ (w : Maps) (p : Packet), l.Fits p.data → BelowThreshold w p.data →
      ((judgedLowVariance w p ↔ Flat ((l.payload p.data).take 8)) ↔ l.PaddingRepeats p.data)) ∧
    (l.Plain → ∀ (l' : Layout) (w w' : Maps) (p p' : Packet), l'.Plain → l.Fits p.data →
      l'.Fits p'.data → BelowThreshold w p.data → BelowThreshold w' p'.data →
      l.payload p.data = l'.payload p'.data →
        judgedLowVariance w p = judgedLowVariance w' p') := by
  refine ⟨⟨fun h => ?_, fun hl w p => Layout.Plain.judged_iff hl⟩,
    fun hihl w p h hw => Layout.judged_iff_flat_iff h hihl hw, ?_⟩
  · by_contra hl
    have hfits : l.Fits (l.brokenFrame outsider).data := Layout.fits_brokenFrame
    have hw : BelowThreshold .loaded (l.brokenFrame outsider).data := belowThreshold_loaded _
    have hflat := (h _ _ hfits hw).mpr (by
      rw [Layout.payload_brokenFrame, List.take_replicate]
      exact flat_replicate _ _)
    exact Layout.not_flat_brokenFrame hl outsider ((Layout.judged_iff hfits hw).mp hflat)
  · intro hl l' w w' p p' hl' h h' hw hw' hpayload
    rw [Bool.eq_iff_iff, hl.judged_iff h hw, hpayload, hl'.judged_iff h' hw']

/-- A payload of four equal bytes, filled up to the sixty bytes an Ethernet frame has at least. -/
def shortCall : Packet where
  cpu := 0
  data := [0x02, 0, 0, 0, 0, 2, 0x02, 0, 0, 0, 0, 1, 0x08, 0x00,
    0x45, 0, 0x00, 0x20, 0, 1, 0, 0, 64, 17, 0x66, 0xca, 10, 0, 0, 1, 10, 0, 0, 2,
    0x13, 0x8c, 0x13, 0x8c, 0x00, 0x0c, 0, 0, 5, 5, 5, 5] ++ List.replicate 14 0

/-- The same without the padding. -/
def unpaddedCall : Packet := ⟨0, shortCall.data.take 46⟩

/-- The layout of the two, with and without the padding. -/
def shortLayout (paddingLength : ℕ) : Layout :=
  ⟨5, 4, paddingLength, by decide, by decide, by decide⟩

theorem fits_shortCall : (shortLayout 14).Fits shortCall.data :=
  ⟨by decide, by decide, by decide, by decide, by decide⟩

theorem fits_unpaddedCall : (shortLayout 0).Fits unpaddedCall.data :=
  ⟨by decide, by decide, by decide, by decide, by decide⟩

/-- Eight bytes of payload, and some padding. -/
def longLayout (paddingLength : ℕ) : Layout :=
  ⟨5, 8, paddingLength, by decide, by decide, by decide⟩

def longCall (paddingLength : ℕ) : Packet :=
  (longLayout paddingLength).frame outsider (List.replicate 8 5) (List.replicate paddingLength 0)

theorem fits_longCall (paddingLength : ℕ) :
    (longLayout paddingLength).Fits (longCall paddingLength).data :=
  Layout.fits_frame rfl List.length_replicate

theorem payload_longCall (paddingLength : ℕ) :
    (longLayout paddingLength).payload (longCall paddingLength).data = List.replicate 8 5 :=
  Layout.payload_frame rfl

/-- Without its padding the frame is judged; with it the frame is misjudged, as the padding does not
repeat the payload; and padding does not count behind eight bytes of payload. -/
theorem judged_iff_flat_shortCall :
    judgedLowVariance .loaded unpaddedCall ∧
      ¬ (judgedLowVariance .loaded shortCall ↔
        Flat (((shortLayout 14).payload shortCall.data).take 8)) ∧
      judgedLowVariance .loaded (longCall 0) = judgedLowVariance .loaded (longCall 10) := by
  refine ⟨?_, ?_, ?_⟩
  · exact ((judged_iff_flat (shortLayout 0)).1.mpr (by decide) .loaded unpaddedCall
      fits_unpaddedCall (belowThreshold_loaded _)).mpr (by decide)
  · exact ((judged_iff_flat (shortLayout 14)).2.1 rfl .loaded shortCall fits_shortCall
      (belowThreshold_loaded _)).not.mpr fun h => absurd (h (by decide)) (by decide)
  · exact (judged_iff_flat (longLayout 0)).2.2 (by decide) (longLayout 10) .loaded .loaded
      (longCall 0) (longCall 10) (by decide) (fits_longCall 0) (fits_longCall 10)
      (belowThreshold_loaded _) (belowThreshold_loaded _)
      ((payload_longCall 0).trans (payload_longCall 10).symm)

/-- Four equal bytes of payload are let through with the padding behind them. -/
theorem not_forall_judged_iff_flat :
    ¬ ∀ (l : Layout) (w : Maps) (p : Packet), l.Fits p.data → BelowThreshold w p.data →
      (judgedLowVariance w p ↔ Flat ((l.payload p.data).take 8)) := by
  intro h
  have hiff := h (shortLayout 14) .loaded shortCall fits_shortCall (belowThreshold_loaded _)
  exact absurd (hiff.mpr (by decide)) (by decide)

end NicXdp

end BioShield
