import Tns.Ip.Datagram

/-!
# What a receiver reads

The lengths that `recvDatagram` uses come from the header.  It checks that the
header is not longer than the datagram claims to be, but neither that the header
has its 20 bytes nor that the datagram has arrived in full.
-/

namespace Tns.Ip.Wire

variable {received : List Byte}

/-- The scan of the options and the copy of the payload stay within the byte string, and what is
not copied is rejected. -/
structure InBounds (received : List Byte) : Prop where
  reads : ∀ i ∈ (recvDatagram (.ok received)).reads, i < received.length
  result : (∃ msg, (recvDatagram (.ok received)).result = .ok (.error msg)) ∨
    (∃ d, Accepts received d) ∧ 20 ≤ (recvHdr received).headerLen ∧
      (recvHdr received).headerLen ≤ (recvHdr received).totLen.toNat ∧
      (recvHdr received).totLen.toNat ≤ received.length

/-- One of the option bytes that were received is not zero. -/
def HasOptions (received : List Byte) : Prop :=
  ∃ k, 20 ≤ k ∧ k < (recvHdr received).headerLen ∧ k < received.length ∧ received.getD k 0 ≠ 0

/-- The lengths in the header, if it passes the checks, do not exceed what was received: the
options are refused, or the header ends there and so does the datagram. -/
def LengthsFit (received : List Byte) : Prop :=
  HeaderOk received → 20 ≤ (recvHdr received).headerLen ∧
    (HasOptions received ∨
      ((recvHdr received).headerLen = 20 ∨ (recvHdr received).headerLen ≤ received.length) ∧
        ((recvHdr received).headerLen ≤ (recvHdr received).totLen.toNat →
          (recvHdr received).totLen.toNat ≤ received.length))

theorem mem_optionReads (hlen : 20 ≤ (recvHdr received).headerLen) {i : ℕ} :
    i ∈ optionReads received ↔ 20 ≤ i ∧ i < (recvHdr received).headerLen ∧
      ∀ k, 20 ≤ k → k < i → received.getD k 0 = 0 := by
  have hle := headerLen_le (recvHdr received)
  rw [optionReads, mem_anyNonzero, Nat.add_sub_cancel' hlen]
  apply and_congr_right
  intro hi
  apply and_congr_right
  intro hi'
  refine forall_congr' fun k ↦ forall_congr' fun hk ↦ forall_congr' fun hk' ↦ ?_
  rw [getD_recvBuf (by unfold MAX_DATAGRAM_SIZE; omega)]

theorem hasOptions_of_not_noOptions (h : ¬NoOptions received) : HasOptions received := by
  have hle := headerLen_le (recvHdr received)
  unfold NoOptions at h
  push Not at h
  obtain ⟨k, hk, hk', hne⟩ := h
  rw [getD_recvBuf (by unfold MAX_DATAGRAM_SIZE; omega)] at hne
  refine ⟨k, hk, hk', ?_, hne⟩
  by_contra hlt
  exact hne (List.getD_eq_default _ _ (not_lt.mp hlt))

theorem not_noOptions_of_hasOptions (h : HasOptions received) : ¬NoOptions received := by
  obtain ⟨k, hk, hk', -, hne⟩ := h
  have hle := headerLen_le (recvHdr received)
  intro hall
  have hzero := hall k hk hk'
  rw [getD_recvBuf (by unfold MAX_DATAGRAM_SIZE; omega)] at hzero
  exact hne hzero

/-- A scan that finds an option byte stops there. -/
theorem optionReads_lt_of_hasOptions (hlen : 20 ≤ (recvHdr received).headerLen)
    (h : HasOptions received) : ∀ i ∈ optionReads received, i < received.length := by
  obtain ⟨k, hk, -, hlt, hne⟩ := h
  intro i hi
  obtain ⟨-, -, hzero⟩ := (mem_optionReads hlen).mp hi
  by_contra hge
  exact hne (hzero k hk (by omega))

/-- A scan that finds nothing reads all of the options. -/
theorem optionReads_lt_iff (hlen : 20 ≤ (recvHdr received).headerLen) (h : NoOptions received) :
    (∀ i ∈ optionReads received, i < received.length) ↔
      (recvHdr received).headerLen = 20 ∨ (recvHdr received).headerLen ≤ received.length := by
  have hle := headerLen_le (recvHdr received)
  have hmem : ∀ i, i ∈ optionReads received ↔ 20 ≤ i ∧ i < (recvHdr received).headerLen := by
    intro i
    rw [mem_optionReads hlen]
    refine ⟨fun hi ↦ ⟨hi.1, hi.2.1⟩, fun hi ↦ ⟨hi.1, hi.2, fun k hk hk' ↦ ?_⟩⟩
    have hzero := h k hk (by omega)
    rwa [getD_recvBuf (by unfold MAX_DATAGRAM_SIZE; omega)] at hzero
  constructor
  · intro hall
    by_contra hnot
    have hlast := hall ((recvHdr received).headerLen - 1) ((hmem _).mpr (by omega))
    omega
  · intro hcase i hi
    have hrange := (hmem i).mp hi
    omega

/-- `recvDatagram` stays within what it received, if and only if the lengths in a header that
passes the checks do. -/
theorem inBounds_iff (hne : received ≠ []) (hmax : received.length ≤ MAX_DATAGRAM_SIZE) :
    InBounds received ↔ LengthsFit received := by
  have hrun := receives hne
  have haccepts : (∃ d, Accepts received d) ↔ Accepted received := by
    simp only [accepts_iff, exists_and_left, exists_eq, and_true]
  constructor
  · rintro ⟨hreads, hresult⟩ hheader
    rw [haccepts] at hresult
    generalize recvDatagram (.ok received) = run at hrun hreads hresult
    cases hrun with
    | refuseHeader msg hnot => exact absurd hheader hnot
    | badRange _ hlen =>
        rcases hresult with ⟨msg, hmsg⟩ | ⟨-, hlen', -⟩
        · cases hmsg
        · exact absurd hlen' (not_le.mpr hlen)
    | refuseOptions msg _ hlen hoptions =>
        exact ⟨hlen, .inl (hasOptions_of_not_noOptions hoptions)⟩
    | refuseLength msg _ hlen hoptions htotal =>
        refine ⟨hlen, .inr ⟨(optionReads_lt_iff hlen hoptions).mp hreads, ?_⟩⟩
        exact fun hle ↦ absurd hle (not_le.mpr htotal)
    | copy result _ hlen hoptions htotal hcopy =>
        rcases hresult with ⟨msg, hmsg⟩ | ⟨-, -, -, hle⟩
        · simp only [hcopy] at hmsg
          split at hmsg <;> cases hmsg
        · refine ⟨hlen, .inr ⟨(optionReads_lt_iff hlen hoptions).mp ?_, fun _ ↦ hle⟩⟩
          exact fun i hi ↦ hreads i (List.mem_append_left _ hi)
  · intro hfit
    suffices hall : (∀ i ∈ (recvDatagram (.ok received)).reads, i < received.length) ∧
        ((∃ msg, (recvDatagram (.ok received)).result = .ok (.error msg)) ∨
          Accepted received ∧ 20 ≤ (recvHdr received).headerLen ∧
            (recvHdr received).headerLen ≤ (recvHdr received).totLen.toNat ∧
            (recvHdr received).totLen.toNat ≤ received.length) from
      ⟨hall.1, by rw [haccepts]; exact hall.2⟩
    generalize recvDatagram (.ok received) = run at hrun
    cases hrun with
    | refuseHeader msg hnot => exact ⟨fun i hi ↦ absurd hi List.not_mem_nil, .inl ⟨msg, rfl⟩⟩
    | badRange hheader hlen => exact absurd (hfit hheader).1 (not_le.mpr hlen)
    | refuseOptions msg hheader hlen hoptions =>
        have hread := optionReads_lt_of_hasOptions hlen (hasOptions_of_not_noOptions hoptions)
        exact ⟨hread, .inl ⟨msg, rfl⟩⟩
    | refuseLength msg hheader hlen hoptions htotal =>
        rcases (hfit hheader).2 with hhas | ⟨hfits, -⟩
        · exact absurd hoptions (not_noOptions_of_hasOptions hhas)
        · exact ⟨(optionReads_lt_iff hlen hoptions).mpr hfits, .inl ⟨msg, rfl⟩⟩
    | copy result hheader hlen hoptions htotal hcopy =>
        rcases (hfit hheader).2 with hhas | ⟨hfits, hle⟩
        · exact absurd hoptions (not_noOptions_of_hasOptions hhas)
        · have hle' := hle htotal
          refine ⟨?_, .inr ⟨⟨hne, hheader, hlen, hoptions, htotal, hle'.trans hmax⟩, hlen, htotal,
            hle'⟩⟩
          intro i hi
          rcases List.mem_append.mp hi with hoption | hcopied
          · exact (optionReads_lt_iff hlen hoptions).mpr hfits i hoption
          · rw [List.mem_range'_1] at hcopied
            omega

/-- A datagram of 24 bytes that has arrived in full. -/
theorem inBounds_iff_whole :
    ∃ received : List Byte, HeaderOk received ∧ received.length = 24 ∧
      (InBounds received ↔ LengthsFit received) :=
  ⟨[69, 0, 0, 24, 0, 0, 0, 0, 16, 6, 150, 222, 10, 0, 0, 1, 10, 0, 0, 2, 1, 2, 3, 4],
    ⟨rfl, by decide⟩, rfl, inBounds_iff (by decide) (by decide)⟩

/-- A header alone that announces 20 bytes of payload: they are copied from behind it. -/
theorem not_inBounds :
    ∃ received : List Byte, received ≠ [] ∧ received.length ≤ MAX_DATAGRAM_SIZE ∧
      HeaderOk received ∧ ¬InBounds received := by
  refine ⟨[69, 0, 0, 40, 0, 0, 0, 0, 16, 6, 150, 206, 10, 0, 0, 1, 10, 0, 0, 2], by decide,
    by decide, ⟨rfl, by decide⟩, ?_⟩
  intro h
  exact absurd (h.reads 20 (by decide)) (by decide)

end Tns.Ip.Wire
