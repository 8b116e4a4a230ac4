import Tns.Ip.RipMessage

/-!
# RIP messages on the wire

A response comes out of its payload with every entry at its place.  The receiver
trusts the count in the payload: a count that is too large for it makes the
constructor read behind its end.
-/

namespace Tns.Ip

namespace RipMessage

/-! ## What the neighbours read -/

/-- The cost that a neighbour reads for an entry: incremented and capped, after poisoned
reverse. -/
def costFor (destIP : Ipv4Address) (entry : Entry) (learnedFrom : Option Ipv4Address) : ℕ :=
  min ((if learnedFrom = some destIP then 16 else entry.cost.toNat) + 1) 16

theorem toNat_receivedCost {cost : UInt32} (h : cost ≤ INFINITY) :
    (receivedCost cost).toNat = min (cost.toNat + 1) 16 := by
  have hle : cost.toNat ≤ 16 := UInt32.le_iff_toNat_le.mp h
  have hadd : (cost + 1).toNat = cost.toNat + 1 := UInt32.toNat_add_of_lt (by simp; omega)
  unfold receivedCost
  rcases le_total (cost + 1) INFINITY with hcap | hcap
  · rw [min_eq_left hcap, hadd]
    have hcap' := UInt32.le_iff_toNat_le.mp hcap
    rw [hadd, toNat_infinity] at hcap'
    omega
  · rw [min_eq_right hcap, toNat_infinity]
    have hcap' := UInt32.le_iff_toNat_le.mp hcap
    rw [hadd, toNat_infinity] at hcap'
    omega

theorem toNat_cost_received_poison {entry : Entry} (h : entry.cost ≤ INFINITY)
    (destIP : Ipv4Address) (learnedFrom : Option Ipv4Address) :
    (received (poison destIP entry learnedFrom)).cost.toNat = costFor destIP entry learnedFrom := by
  have hle : (poison destIP entry learnedFrom).cost ≤ INFINITY := by
    simp only [poison]
    split
    · exact le_rfl
    · exact h
  rw [received, toNat_receivedCost hle]
  simp only [poison, costFor, apply_ite UInt32.toNat, toNat_infinity]

/-- A response that a neighbour decodes has as many entries as were put in, each at its place
with its address and mask, and with the cost for that neighbour. -/
theorem decode_encode_response {entries : List Entry} {learnedFrom : List (Option Ipv4Address)}
    (hle : entries.length ≤ 65535) (hlength : entries.length = learnedFrom.length)
    (hcost : ∀ entry ∈ entries, entry.cost ≤ INFINITY) (destIP : Ipv4Address) :
    ∃ msg msg' : RipMessage, makeResponse entries learnedFrom = .ok msg ∧
      decode (msg.encode destIP) = .ok msg' ∧ msg'.command = .response ∧
      msg'.getNumEntries.toNat = entries.length ∧ msg'.entries.length = entries.length ∧
      ∀ (i : ℕ) (entry : Entry) (lf : Option Ipv4Address),
        entries[i]? = some entry → learnedFrom[i]? = some lf →
        ∃ entry' : Entry, msg'.entries[i]? = some entry' ∧ entry'.address = entry.address ∧
          entry'.mask = entry.mask ∧ entry'.cost.toNat = costFor destIP entry lf := by
  have hmake : makeResponse entries learnedFrom =
      .ok { command := .response, entries, learnedFrom } :=
    make_eq_ok.mpr ⟨hle, hlength, rfl⟩
  have hmade := made_of_make hmake
  have hpoisoned : ((RipMessage.mk .response entries learnedFrom).poisoned destIP).length =
      entries.length := by
    rw [poisoned, List.length_zipWith]
    exact min_eq_left hlength.le
  refine ⟨_, _, hmake, hmade.decode_encode destIP, rfl, ?_, ?_, ?_⟩
  · rw [getNumEntries, UInt16.toNat_ofNat', List.length_map, hpoisoned]
    exact Nat.mod_eq_of_lt (by omega)
  · rw [List.length_map, hpoisoned]
  · intro i entry lf hentry hlf
    have hmem : entry ∈ entries := List.mem_of_getElem? hentry
    refine ⟨received (poison destIP entry lf), ?_, rfl, rfl, ?_⟩
    · rw [List.getElem?_map, poisoned, List.getElem?_zipWith, hentry, hlf]
      rfl
    · exact toNat_cost_received_poison (hcost entry hmem) destIP lf

/-- Three entries, one of them learned from the neighbour and one from another. -/
theorem decode_encode_response_three :
    let entries : List Entry := [⟨0, 0x0a000000, 0xffffff00⟩, ⟨3, 0x0a000100, 0xffffff00⟩,
      ⟨16, 0x0a000200, 0xffffff00⟩]
    let learnedFrom : List (Option Ipv4Address) :=
      [none, some { addr := 0x0a000002 }, some { addr := 0x0a000003 }]
    ∃ msg msg' : RipMessage, makeResponse entries learnedFrom = .ok msg ∧
      decode (msg.encode { addr := 0x0a000002 }) = .ok msg' ∧ msg'.command = .response ∧
      msg'.getNumEntries.toNat = entries.length ∧ msg'.entries.length = entries.length ∧
      ∀ (i : ℕ) (entry : Entry) (lf : Option Ipv4Address),
        entries[i]? = some entry → learnedFrom[i]? = some lf →
        ∃ entry' : Entry, msg'.entries[i]? = some entry' ∧ entry'.address = entry.address ∧
          entry'.mask = entry.mask ∧
          entry'.cost.toNat = costFor { addr := 0x0a000002 } entry lf :=
  decode_encode_response (by decide) rfl (by decide) { addr := 0x0a000002 }

/-! ## Counts that the payload does not bear out -/

theorem be32_drop (p : List Byte) (k i : ℕ) : be32 (p.drop k) i = be32 p (k + i) := by
  simp only [be32, List.getD_eq_getElem?_getD, List.getElem?_drop, Nat.add_assoc]

theorem be16_drop (p : List Byte) (k i : ℕ) : be16 (p.drop k) i = be16 p (k + i) := by
  simp only [be16, List.getD_eq_getElem?_getD, List.getElem?_drop, Nat.add_assoc]

theorem ntoh16_eq (p : List Byte) :
    ntoh16 p = if 2 ≤ p.length then .ok (be16 p 0, p.drop 2) else .error .undefinedBehaviour := by
  rcases p with _ | ⟨b₀, _ | ⟨b₁, p⟩⟩
  · rfl
  · rfl
  · rw [if_pos (by simp)]
    rfl

theorem ntoh32_eq (p : List Byte) :
    ntoh32 p = if 4 ≤ p.length then .ok (be32 p 0, p.drop 4) else .error .undefinedBehaviour := by
  rcases p with _ | ⟨b₀, _ | ⟨b₁, _ | ⟨b₂, _ | ⟨b₃, p⟩⟩⟩⟩
  · rfl
  · rfl
  · rfl
  · rfl
  · rw [if_pos (by simp)]
    rfl

/-- The entry at the front of the bytes. -/
def entryAt (p : List Byte) (i : ℕ) : Entry where
  cost := be32 p i
  address := be32 p (i + 4)
  mask := be32 p (i + 8)

theorem decodeEntry_eq (p : List Byte) :
    decodeEntry p =
      if 12 ≤ p.length then .ok (received (entryAt p 0), p.drop 12)
      else .error .undefinedBehaviour := by
  unfold decodeEntry readEntry
  rw [ntoh32_eq]
  split
  · rename_i h₁
    rw [Except.ok_bind]
    dsimp only
    rw [ntoh32_eq, List.length_drop]
    split
    · rename_i h₂
      rw [Except.ok_bind]
      dsimp only
      rw [ntoh32_eq, List.length_drop, List.length_drop]
      split
      · rename_i h₃
        rw [if_pos (by omega)]
        simp only [Except.ok_bind, be32_drop, List.drop_drop]
        rfl
      · rename_i h₃
        rw [if_neg (by omega)]
        rfl
    · rename_i h₂
      rw [if_neg (by omega)]
      rfl
  · rename_i h₁
    rw [if_neg (by omega)]
    rfl

theorem entryAt_drop (p : List Byte) (k i : ℕ) : entryAt (p.drop k) i = entryAt p (k + i) := by
  simp only [entryAt, be32_drop, Nat.add_assoc]

/-- The loop of the constructor needs twelve bytes for each of the entries. -/
theorem readMany_decodeEntry (n : ℕ) (p : List Byte) :
    readMany decodeEntry n p =
      if 12 * n ≤ p.length then
        .ok ((List.range n).map fun i ↦ received (entryAt p (12 * i)))
      else .error .undefinedBehaviour := by
  induction n generalizing p with
  | zero =>
      rw [if_pos (Nat.zero_le _)]
      rfl
  | succ n ih =>
      rw [readMany, decodeEntry_eq]
      split
      · rename_i hfirst
        rw [Except.ok_bind]
        dsimp only
        rw [ih, List.length_drop]
        split
        · rename_i hrest
          have hmove : (List.range n).map (fun i ↦ received (entryAt (p.drop 12) (12 * i))) =
              (List.range n).map ((fun i ↦ received (entryAt p (12 * i))) ∘ Nat.succ) := by
            apply List.map_congr_left
            intro i _
            rw [entryAt_drop, Function.comp_apply, Nat.succ_eq_add_one, Nat.mul_add, Nat.mul_one,
              Nat.add_comm]
          rw [if_pos (by omega), Except.ok_bind, List.range_succ_eq_map, List.map_cons,
            List.map_map, hmove]
          rfl
        · rename_i hrest
          rw [if_neg (by omega)]
          rfl
      · rename_i hfirst
        rw [if_neg (by omega)]
        rfl

/-- The count in a payload. -/
def countAt (payload : List Byte) : ℕ := (be16 payload 2).toNat

theorem decode_eq (payload : List Byte) :
    decode payload =
      if 4 ≤ payload.length ∧ 4 + 12 * countAt payload ≤ payload.length then
        .ok {
          command := .ofCode (be16 payload 0)
          entries := (List.range (countAt payload)).map fun i ↦
            received (entryAt payload (4 + 12 * i))
          learnedFrom := [] }
      else .error .undefinedBehaviour := by
  unfold decode
  rw [ntoh16_eq]
  split
  · rename_i hcommand
    rw [Except.ok_bind]
    dsimp only
    rw [ntoh16_eq, List.length_drop]
    split
    · rename_i hcount
      have hnum : be16 (payload.drop 2) 0 = be16 payload 2 := be16_drop payload 2 0
      rw [Except.ok_bind]
      dsimp only
      rw [readMany_decodeEntry, List.drop_drop, List.length_drop, hnum]
      split
      · rename_i hentries
        rw [if_pos ⟨by omega, by unfold countAt; omega⟩, Except.ok_bind]
        simp only [entryAt_drop, Nat.reduceAdd]
        rfl
      · rename_i hentries
        rw [if_neg (by unfold countAt; omega)]
        rfl
    · rename_i hcount
      rw [if_neg (by omega)]
      rfl
  · rename_i hcommand
    rw [if_neg (by omega)]
    rfl

/-- The constructor rejects the payload, or it makes a message of the entries that the payload
holds at their places. -/
def ReadsInside (payload : List Byte) : Prop :=
  (∃ msg, decode payload = .error (.invalidArgument msg)) ∨
    ∃ msg : RipMessage, decode payload = .ok msg ∧
      4 + 12 * msg.entries.length ≤ payload.length ∧
      ∀ (i : ℕ) (entry : Entry), msg.entries[i]? = some entry →
        entry = received (entryAt payload (4 + 12 * i))

/-- The constructor stays inside the payload, if and only if the payload has the four bytes of
the command and the count, and twelve bytes for each entry that is counted. -/
theorem readsInside_iff (payload : List Byte) :
    ReadsInside payload ↔
      4 ≤ payload.length ∧ 4 + 12 * countAt payload ≤ payload.length := by
  unfold ReadsInside
  rw [decode_eq]
  split
  · rename_i hfits
    refine iff_of_true (.inr ⟨_, rfl, ?_, ?_⟩) hfits
    · rw [List.length_map, List.length_range]
      exact hfits.2
    · intro i entry hentry
      rw [List.getElem?_map, Option.map_eq_some_iff] at hentry
      obtain ⟨j, hj, rfl⟩ := hentry
      obtain ⟨hlt, rfl⟩ := List.getElem?_eq_some_iff.mp hj
      rw [List.getElem_range]
  · rename_i hshort
    refine iff_of_false ?_ hshort
    rintro (⟨msg, hmsg⟩ | ⟨msg, hmsg, -⟩)
    · cases hmsg
    · cases hmsg

/-- A response that counts one entry and ends there: the entry is read from behind it. -/
theorem not_readsInside : ¬∀ payload : List Byte, ReadsInside payload := by
  intro h
  rcases h [0, 2, 0, 1] with ⟨msg, hmsg⟩ | ⟨msg, hmsg, -⟩
  · cases hmsg
  · cases hmsg

end RipMessage

end Tns.Ip
