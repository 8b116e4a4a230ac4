import Tns.Library.Cyclic
import Tns.Util

/-!
# The ring buffer

`RingBuffer<T, N>` stores absolute positions cyclically.  `write` and `read`
work on an inclusive range `[lo, last]` of positions and split it where it runs
past the end of the array.  Note that `write` refuses a range of one cell.
-/

namespace Tns.Tcp

open Tns.Library Tns.Library.Cyclic

/-- `RingBuffer<T, N>`. -/
structure RingBuffer (T : Type) (N : ℕ) where
  buf : Vector T N

namespace RingBuffer

variable {T : Type} {N : ℕ}

abbrev idx (N seq : ℕ) : ℕ := seq % N

/-- `at(seq)`; without a cell there is nothing to refer to. -/
def atSeq (rb : RingBuffer T N) (seq : ℕ) : Exec T :=
  match rb.buf[idx N seq]? with
  | some x => .ok x
  | none => .error .undefinedBehaviour

/-- Write `data` from position `lo` up to position `last` inclusive; returns how many
elements were written. -/
def write (rb : RingBuffer T N) (data : List T) (lo last : ℕ) : Exec (ℕ × RingBuffer T N) := do
  if last ≤ lo then
    return (0, rb)
  Exec.assertThat (last - lo < N) "Cannot write more than the buffer size"
  let atIdx := idx N lo
  let lastIdx := idx N last
  let lastIdxPlus1 := lastIdx + 1
  if atIdx ≤ lastIdx then
    let n := min (lastIdxPlus1 - atIdx) data.length
    return (n, ⟨copyTo rb.buf atIdx (data.take n)⟩)
  else
    let nLeft := data.length
    let n1 := N - atIdx
    if nLeft ≤ n1 then
      return (nLeft, ⟨copyTo rb.buf atIdx (data.take nLeft)⟩)
    else
      let buf := copyTo rb.buf atIdx (data.take n1)
      let nLeft := nLeft - n1
      let n2 := min lastIdxPlus1 nLeft
      return (n1 + n2, ⟨copyTo buf 0 ((data.drop n1).take n2)⟩)

/-- `std::copy` out of the array. -/
def copyFrom (v : Vector T N) (off n : ℕ) : List T := (v.toList.drop off).take n

/-- Read the positions from `lo` to `last` inclusive into a buffer of `size` elements;
returns the elements read. -/
def read (rb : RingBuffer T N) (size lo last : ℕ) : Exec (List T) := do
  if last < lo then
    return []
  Exec.assertThat (last - lo < N) "Cannot read more than the buffer size"
  let atIdx := idx N lo
  let lastIdx := idx N last
  let lastIdxPlus1 := lastIdx + 1
  if atIdx ≤ lastIdx then
    let n := min (lastIdxPlus1 - atIdx) size
    return copyFrom rb.buf atIdx n
  else
    let nLeft := size
    let n1 := N - atIdx
    if nLeft ≤ n1 then
      return copyFrom rb.buf atIdx nLeft
    else
      let nLeft := nLeft - n1
      let n2 := min lastIdxPlus1 nLeft
      return copyFrom rb.buf atIdx n1 ++ copyFrom rb.buf 0 n2

/-- The number of elements `write` stores of a source of length `len`. -/
def writeSize (len lo last : ℕ) : ℕ := if last ≤ lo then 0 else min len (last - lo + 1)

variable {rb rb' : RingBuffer T N} {data : List T} {lo last n : ℕ}

theorem cell_copyTo_contiguous (v : Vector T N) (data : List T) (lo n : ℕ)
    (hfit : lo % N + n ≤ N) (hn : n ≤ data.length) :
    (∀ k, lo ≤ k → k < lo + n → cell (copyTo v (lo % N) (data.take n)) k = data[k - lo]?) ∧
      ∀ k, (∀ j, lo ≤ j → j < lo + n → j % N ≠ k % N) →
        cell (copyTo v (lo % N) (data.take n)) k = cell v k := by
  have hlen : (data.take n).length = n := by simp [hn]
  constructor
  · intro k hlo hk
    have hmod := mod_of_window N lo k hlo (by omega)
    rw [if_pos (by omega)] at hmod
    rw [cell, getElem?_copyTo _ _ _ _ (by omega), if_pos (by omega), hmod, Nat.add_sub_cancel_left]
    exact List.getElem?_take_of_lt (by omega)
  · intro k hk
    rw [cell, getElem?_copyTo _ _ _ _ (by omega), if_neg, cell]
    rintro ⟨hge, hlt⟩
    -- The cell of `k` would be the one of a written position.
    apply hk (lo + (k % N - lo % N)) (by omega) (by omega)
    have hmod := mod_of_window N lo (lo + (k % N - lo % N))
      (by omega) (by omega)
    rw [if_pos (by omega)] at hmod
    omega

/-- Where `write` puts its elements, for a range that fits in the array: the cells of
`[lo, lo + n)` take the data in order, every other cell stays. -/
theorem write_cells (hlt : lo < last) (h : rb.write data lo last = .ok (n, rb')) :
    last - lo < N ∧ n = min data.length (last - lo + 1) ∧
      (∀ k, lo ≤ k → k < lo + n → cell rb'.buf k = data[k - lo]?) ∧
      ∀ k, (∀ j, lo ≤ j → j < lo + n → j % N ≠ k % N) → cell rb'.buf k = cell rb.buf k := by
  rw [write, if_neg (by omega)] at h
  simp only [idx, Exec.bind_eq_ok, Exec.assertThat_eq_ok] at h
  obtain ⟨-, hfit, h⟩ := h
  have hat : lo % N < N := Nat.mod_lt _ (by omega)
  have hlast := mod_of_window N lo last (by omega) (by omega)
  by_cases hle : lo % N ≤ last % N
  · -- The range does not run past the end of the array.
    rw [if_pos hle] at h
    simp only [Exec.pure_eq_ok, Prod.mk.injEq] at h
    obtain ⟨rfl, rfl⟩ := h
    split at hlast
    · obtain ⟨hnew, hold⟩ := cell_copyTo_contiguous rb.buf data lo
        (min (last % N + 1 - lo % N) data.length) (by omega) (by omega)
      exact ⟨hfit, by omega, hnew, hold⟩
    · omega
  · rw [if_neg hle] at h
    have hover : ¬lo % N + (last - lo) < N := by split at hlast <;> omega
    rw [if_neg hover] at hlast
    by_cases hshort : data.length ≤ N - lo % N
    · rw [if_pos hshort] at h
      simp only [Exec.pure_eq_ok, Prod.mk.injEq] at h
      obtain ⟨rfl, rfl⟩ := h
      obtain ⟨hnew, hold⟩ := cell_copyTo_contiguous rb.buf data lo data.length
        (by omega) (Nat.le_refl _)
      exact ⟨hfit, by omega, hnew, hold⟩
    · -- The data is split at the end of the array.
      rw [if_neg hshort] at h
      simp only [Exec.pure_eq_ok, Prod.mk.injEq] at h
      obtain ⟨rfl, rfl⟩ := h
      obtain ⟨hnew, hold⟩ := cell_copyTo_contiguous rb.buf data lo (N - lo % N)
        (by omega) (by omega)
      have hlen : ((data.drop (N - lo % N)).take
          (min (last % N + 1) (data.length - (N - lo % N)))).length =
          min (last % N + 1) (data.length - (N - lo % N)) := by simp
      refine ⟨hfit, by omega, ?_, ?_⟩
      · intro k hlo hk
        have hmod := mod_of_window N lo k hlo (by omega)
        rw [cell, getElem?_copyTo _ _ _ _ (by omega)]
        by_cases hfirst : k - lo < N - lo % N
        · rw [if_neg (by split at hmod <;> omega)]
          exact hnew k hlo (by omega)
        · rw [if_neg (by omega)] at hmod
          rw [if_pos (by omega), hmod, List.getElem?_take_of_lt (by omega), List.getElem?_drop]
          congr 1
          omega
      · intro k hk
        rw [cell, getElem?_copyTo _ _ _ _ (by omega), if_neg]
        · exact hold k fun j hlo hj ↦ hk j hlo (by omega)
        · rintro ⟨-, hlt'⟩
          apply hk (lo + (N - lo % N) + k % N) (by omega) (by omega)
          have hmod := mod_of_window N lo
            (lo + (N - lo % N) + k % N) (by omega) (by omega)
          rw [if_neg (by omega)] at hmod
          omega

/-- Inside a window of one turn, a write at `lo` replaces exactly the positions it covers. -/
theorem write_window {w k : ℕ} (h : rb.write data lo last = .ok (n, rb'))
    (hw : w ≤ lo) (hlast : last < w + N) (hk : w ≤ k) (hkN : k < w + N) :
    cell rb'.buf k = if lo ≤ k ∧ k < lo + n then data[k - lo]? else cell rb.buf k := by
  by_cases hlt : lo < last
  · obtain ⟨hfit, hn, hnew, hold⟩ := write_cells hlt h
    split
    · rename_i hin
      exact hnew k hin.1 hin.2
    · apply hold k
      intro j hlo hj
      rcases Nat.lt_or_ge j k with hjk | hjk
      · exact mod_ne_mod hjk (by omega)
      · exact (mod_ne_mod (by omega) (by omega)).symm
  · rw [write, if_pos (by omega)] at h
    simp only [Exec.pure_eq_ok, Prod.mk.injEq] at h
    obtain ⟨rfl, rfl⟩ := h
    rw [if_neg (by omega)]

theorem write_size (h : rb.write data lo last = .ok (n, rb')) :
    n = writeSize data.length lo last := by
  rw [writeSize]
  split
  · rename_i hle
    rw [write, if_pos hle] at h
    simp only [Exec.pure_eq_ok, Prod.mk.injEq] at h
    exact h.1.symm
  · exact (write_cells (by omega) h).2.1

theorem write_of_le (rb : RingBuffer T N) (data : List T) (h : last ≤ lo) :
    rb.write data lo last = .ok (0, rb) := by
  rw [write, if_pos h]
  rfl

theorem write_le_length (h : rb.write data lo last = .ok (n, rb')) : n ≤ data.length := by
  rw [write_size h, writeSize]
  split <;> omega

theorem exists_write (rb : RingBuffer T N) (data : List T) (lo last : ℕ) (hfit : last - lo < N) :
    ∃ n rb', rb.write data lo last = .ok (n, rb') := by
  rw [write]
  split
  · exact ⟨_, _, rfl⟩
  · simp only [Exec.assertThat, if_pos hfit, Exec.ok_bind]
    split
    · exact ⟨_, _, rfl⟩
    · split <;> exact ⟨_, _, rfl⟩

/-- A write replaces the cells of the positions it covers and no other cell. -/
theorem cell_write (h : rb.write data lo last = .ok (n, rb')) :
    (∀ x < n, cell rb'.buf (lo + x) = data[x]?) ∧
      ∀ k, (∀ x < n, (lo + x) % N ≠ k % N) → cell rb'.buf k = cell rb.buf k := by
  by_cases hlt : lo < last
  · obtain ⟨-, -, hnew, hold⟩ := write_cells hlt h
    constructor
    · intro x hx
      rw [hnew _ (by omega) (by omega), Nat.add_sub_cancel_left]
    · intro k hk
      apply hold k
      intro p hlo hp
      have hne := hk (p - lo) (by omega)
      rwa [Nat.add_sub_cancel' hlo] at hne
  · rw [write_of_le _ _ (by omega)] at h
    obtain ⟨rfl, rfl⟩ := Prod.mk.inj (Except.ok.inj h)
    exact ⟨fun x hx ↦ absurd hx (Nat.not_lt_zero x), fun _ _ ↦ rfl⟩

/-- Two writes of the same data, counted from `i` and from `j`, keep cells the same. -/
theorem cell_write_shift {rc rc' : RingBuffer T N} {i j k lo' last' : ℕ}
    (h : rb.write data lo last = .ok (n, rb')) (h' : rc.write data lo' last' = .ok (n, rc'))
    (hlo : i ≤ lo) (hlo' : lo' = lo - i + j) (hk : i ≤ k)
    (hold : (∀ x < n, (lo + x) % N ≠ k % N) → cell rc.buf (k - i + j) = cell rb.buf k) :
    cell rc'.buf (k - i + j) = cell rb'.buf k := by
  obtain ⟨hnew, hkeep⟩ := cell_write h
  obtain ⟨hnew', hkeep'⟩ := cell_write h'
  have hmove : ∀ x, (lo' + x) % N = (k - i + j) % N ↔ (lo + x) % N = k % N := by
    intro x
    rw [hlo', show lo - i + j + x = lo + x - i + j by omega]
    exact mod_shift (by omega) hk
  by_cases hin : ∃ x < n, (lo + x) % N = k % N
  · obtain ⟨x, hx, hmod⟩ := hin
    calc cell rc'.buf (k - i + j) = cell rc'.buf (lo' + x) := by
          rw [cell, cell, (hmove x).mpr hmod]
      _ = cell rb'.buf (lo + x) := (hnew' x hx).trans (hnew x hx).symm
      _ = cell rb'.buf k := by rw [cell, cell, hmod]
  · have hout : ∀ x < n, (lo + x) % N ≠ k % N := fun x hx hmod ↦ hin ⟨x, hx, hmod⟩
    rw [hkeep k hout, hkeep' _ fun x hx ↦ mt (hmove x).mp (hout x hx)]
    exact hold hout

/-- A write keeps what a window says about the positions outside it, and extends the
window over the new positions if the data is admitted there. -/
theorem write_preserves_window {P : ℕ → T → Prop} {w hi lo' : ℕ}
    (h : rb.write data lo last = .ok (n, rb')) (hw : w ≤ lo) (hlast : last < w + N)
    (hdata : ∀ i (hi : i < data.length), P (lo + i) data[i])
    (hwin : Window P rb.buf lo' hi) (hlo' : w ≤ lo') (hhi : hi ≤ w + N) :
    Window P rb'.buf lo' hi := by
  intro k hk hk'
  rw [write_window h hw hlast (by omega) (by omega)]
  split
  · rename_i hin
    have hlen : k - lo < data.length := by
      have := write_size h
      simp only [writeSize] at this
      split at this <;> omega
    refine ⟨data[k - lo], List.getElem?_eq_getElem hlen, ?_⟩
    have hP := hdata (k - lo) hlen
    rwa [Nat.add_sub_cancel' hin.1] at hP
  · exact hwin k hk hk'

theorem write_window_new {P : ℕ → T → Prop} (h : rb.write data lo last = .ok (n, rb'))
    (hdata : ∀ i (hi : i < data.length), P (lo + i) data[i]) :
    Window P rb'.buf lo (lo + n) := by
  intro k hk hk'
  have hsize := write_size h
  simp only [writeSize] at hsize
  split at hsize
  · omega
  · have hlen : k - lo < data.length := by omega
    refine ⟨data[k - lo], ?_, ?_⟩
    · rw [(write_cells (by omega) h).2.2.1 k hk hk']
      exact List.getElem?_eq_getElem hlen
    · have hP := hdata (k - lo) hlen
      rwa [Nat.add_sub_cancel' hk] at hP

/-! ## Reading -/

theorem length_copyFrom (v : Vector T N) (off n : ℕ) (hfit : off + n ≤ N) :
    (copyFrom v off n).length = n := by
  simp only [copyFrom, List.length_take, List.length_drop, Vector.length_toList]
  omega

theorem getElem?_copyFrom {v : Vector T N} {off i : ℕ} (hi : i < n) :
    (copyFrom v off n)[i]? = v[off + i]? := by
  rw [copyFrom, List.getElem?_take_of_lt hi, List.getElem?_drop, Vector.getElem?_toList]

/-- `read` completes on every range that fits in the array and returns the cells of
its positions in order. -/
theorem read_cells (rb : RingBuffer T N) (size lo last : ℕ) (hle : lo ≤ last)
    (hfit : last - lo < N) :
    ∃ xs, rb.read size lo last = .ok xs ∧ xs.length = min size (last - lo + 1) ∧
      ∀ i, i < xs.length → xs[i]? = cell rb.buf (lo + i) := by
  have hat : lo % N < N := Nat.mod_lt _ (by omega)
  have hlast := mod_of_window N lo last (by omega) (by omega)
  have hcell : ∀ i, i < N → cell rb.buf (lo + i) =
      if lo % N + i < N then rb.buf[lo % N + i]? else rb.buf[lo % N + i - N]? := by
    intro i hi
    rw [cell, mod_of_window N lo _ (by omega) (by omega), Nat.add_sub_cancel_left]
    split <;> rfl
  simp only [read, idx, if_neg (show ¬last < lo by omega), Exec.assertThat, if_pos hfit,
    Exec.ok_bind]
  by_cases hcontig : lo % N ≤ last % N
  · rw [if_pos hcontig]
    have hover : lo % N + (last - lo) < N := by split at hlast <;> omega
    rw [if_pos hover] at hlast
    have hlen := length_copyFrom rb.buf (lo % N)
      (min (last % N + 1 - lo % N) size) (by omega)
    refine ⟨_, rfl, by omega, fun i hi ↦ ?_⟩
    rw [getElem?_copyFrom (by omega), hcell i (by omega), if_pos (by omega)]
  · rw [if_neg hcontig]
    have hover : ¬lo % N + (last - lo) < N := by split at hlast <;> omega
    rw [if_neg hover] at hlast
    by_cases hshort : size ≤ N - lo % N
    · rw [if_pos hshort]
      have hlen := length_copyFrom rb.buf (lo % N) size (by omega)
      refine ⟨_, rfl, by omega, fun i hi ↦ ?_⟩
      rw [getElem?_copyFrom (by omega), hcell i (by omega), if_pos (by omega)]
    · rw [if_neg hshort]
      have hlen₁ := length_copyFrom rb.buf (lo % N) (N - lo % N) (by omega)
      have hlen₂ := length_copyFrom rb.buf 0
        (min (last % N + 1) (size - (N - lo % N))) (by omega)
      refine ⟨_, rfl, by rw [List.length_append]; omega, fun i hi ↦ ?_⟩
      rw [List.length_append] at hi
      rw [hcell i (by omega)]
      by_cases hfirst : i < N - lo % N
      · rw [List.getElem?_append_left (by omega), getElem?_copyFrom hfirst, if_pos (by omega)]
      · rw [List.getElem?_append_right (by omega), getElem?_copyFrom (by omega),
          if_neg (by omega)]
        congr 1
        omega

theorem read_fit {size : ℕ} {xs : List T} (h : rb.read size lo last = .ok xs) (hle : lo ≤ last) :
    last - lo < N := by
  rw [read, if_neg (by omega)] at h
  simp only [Exec.bind_eq_ok, Exec.assertThat_eq_ok] at h
  exact h.choose_spec.1

theorem read_of_lt (rb : RingBuffer T N) (size : ℕ) (h : last < lo) :
    rb.read size lo last = .ok [] := by
  rw [read, if_pos h]
  rfl

/-- If the cells of the range agree, counted from `i` and from `j`, the same elements are
read. -/
theorem read_shift {rc : RingBuffer T N} {i j size lo' last' : ℕ} {xs : List T}
    (h : rb.read size lo last = .ok xs) (hle : lo ≤ last) (hlo : i ≤ lo)
    (hlo' : lo' = lo - i + j) (hlast' : last' = last - i + j)
    (hcells : ∀ k, lo ≤ k → k < lo + xs.length → cell rc.buf (k - i + j) = cell rb.buf k) :
    rc.read size lo' last' = .ok xs := by
  have hfit := read_fit h hle
  obtain ⟨xs', hxs, hlen, hcell⟩ := read_cells rb size lo last hle hfit
  obtain rfl : xs' = xs := Except.ok.inj (hxs.symm.trans h)
  obtain ⟨ys, hys, hylen, hycell⟩ := read_cells rc size lo' last' (by omega) (by omega)
  rw [hys]
  congr 1
  apply List.ext_getElem?
  intro k
  rcases Nat.lt_or_ge k xs'.length with hk | hk
  · rw [hycell k (by omega), hcell k hk, ← hcells (lo + k) (by omega) (by omega)]
    congr 1
    omega
  · rw [List.getElem?_eq_none hk, List.getElem?_eq_none (by omega)]

theorem read_ne_blocks {size : ℕ} : rb.read size lo last ≠ .error .blocks := by
  rw [read, Exec.assertThat]
  split
  · simp [pure, Except.pure]
  · split
    · simp only [Exec.ok_bind]
      split
      · simp [pure, Except.pure]
      · split <;> simp [pure, Except.pure]
    · simp

theorem read_window {P : ℕ → T → Prop} {size : ℕ} {xs : List T} (hle : lo ≤ last)
    (hfit : last - lo < N) (hwin : Window P rb.buf lo (last + 1))
    (h : rb.read size lo last = .ok xs) :
    xs.length = min size (last - lo + 1) ∧ ∀ i (hi : i < xs.length), P (lo + i) xs[i] := by
  obtain ⟨ys, hys, hlen, hcells⟩ := read_cells rb size lo last hle hfit
  obtain rfl : ys = xs := Except.ok.inj (hys.symm.trans h)
  refine ⟨hlen, fun i hi ↦ ?_⟩
  obtain ⟨x, hx, hP⟩ := hwin (lo + i) (by omega) (by omega)
  have hget : ys[i]? = some x := (hcells i hi).trans hx
  rw [List.getElem?_eq_getElem hi, Option.some.injEq] at hget
  exact hget ▸ hP

/-! ## Writing and reading back -/

/-- The positions from `lo` to `last` take the data in order, as much of it as there is room for,
no other cell changes, and a read of the same positions gets the data. -/
def StoresInRange (rb : RingBuffer T N) (data : List T) (lo last : ℕ) : Prop :=
  let n := min data.length (last - lo + 1)
  ∃ rb', rb.write data lo last = .ok (n, rb') ∧
    (∀ k < n, rb'.buf[(lo + k) % N]? = data[k]?) ∧
    (∀ i < N, (∀ k < n, (lo + k) % N ≠ i) → rb'.buf[i]? = rb.buf[i]?) ∧
    ∀ size ≥ n, ∃ xs, rb'.read size lo last = .ok xs ∧ xs.take n = data.take n

theorem storesInRange_of_lt (rb : RingBuffer T N) (data : List T) (hlt : lo < last)
    (hfit : last - lo < N) : rb.StoresInRange data lo last := by
  obtain ⟨n, rb', hwrite⟩ := exists_write rb data lo last hfit
  obtain ⟨hnew, hold⟩ := cell_write hwrite
  obtain ⟨-, rfl, -⟩ := write_cells hlt hwrite
  refine ⟨rb', hwrite, hnew, fun i hi hout ↦ ?_, fun size hsize ↦ ?_⟩
  · have hmod : i % N = i := Nat.mod_eq_of_lt hi
    have hcell := hold i (by rwa [hmod])
    rwa [cell, cell, hmod] at hcell
  · obtain ⟨xs, hread, hlen, hcells⟩ := read_cells rb' size lo last hlt.le hfit
    refine ⟨xs, hread, List.ext_getElem? fun k ↦ ?_⟩
    rcases lt_or_ge k (min data.length (last - lo + 1)) with hk | hk
    · rw [List.getElem?_take_of_lt hk, List.getElem?_take_of_lt hk, hcells k (by omega), hnew k hk]
    · rw [List.getElem?_eq_none ((List.length_take_le _ _).trans hk),
        List.getElem?_eq_none ((List.length_take_le _ _).trans hk)]

/-- A write stores its data in the range, and a read gets it back, unless the range is a single
cell and there is something to write. -/
theorem storesInRange_iff (rb : RingBuffer T N) (data : List T) (hle : lo ≤ last)
    (hfit : last - lo < N) : rb.StoresInRange data lo last ↔ lo < last ∨ data = [] := by
  constructor
  · rintro ⟨rb', hwrite, -⟩
    rcases hle.lt_or_eq with hlt | rfl
    · exact .inl hlt
    · rw [write_of_le _ _ le_rfl] at hwrite
      have hzero := (Prod.mk.inj (Except.ok.inj hwrite)).1
      exact .inr (List.length_eq_zero_iff.mp (by omega))
  · rintro (hlt | rfl)
    · exact storesInRange_of_lt rb data hlt hfit
    · rcases hle.lt_or_eq with hlt | rfl
      · exact storesInRange_of_lt rb [] hlt hfit
      · have hwrite : rb.write [] lo lo = .ok (0, rb) := write_of_le _ _ le_rfl
        refine ⟨rb, hwrite, by simp, fun _ _ _ ↦ rfl, fun size _ ↦ ?_⟩
        obtain ⟨xs, hread, -⟩ := read_cells rb size lo lo le_rfl hfit
        exact ⟨xs, hread, rfl⟩

/-- Five elements into four cells that run past the end of the array. -/
theorem storesInRange_iff_wrapped :
    (⟨Vector.replicate 5 0⟩ : RingBuffer ℕ 5).StoresInRange [1, 2, 3, 4, 5] 8 11 ↔
      8 < 11 ∨ [1, 2, 3, 4, 5] = [] :=
  storesInRange_iff _ _ (by decide) (by decide)

/-- One element into one cell. -/
theorem not_storesInRange :
    ¬(⟨Vector.replicate 5 0⟩ : RingBuffer ℕ 5).StoresInRange [1] 3 3 := by
  rintro ⟨rb', hwrite, -⟩
  cases hwrite

end RingBuffer

end Tns.Tcp
