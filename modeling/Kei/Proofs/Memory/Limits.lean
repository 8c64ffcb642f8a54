import Kei.Proofs.Memory.Serving

/-!
# Arenas of different limits

A greater limit makes an arena take greater chunks, so two arenas of different limits do not stay
alike. But they stay alike until the greater one takes a chunk that the other has no room for, and
that chunk alone then holds more than the other can ever serve (`Covers`). Nothing of it is lost as
long as requests ask for whole words.
-/

namespace Kei

/-- The request is for words of eight bytes. -/
structure Request.Words (r : Request) : Prop where
  align_eq : r.align = 8
  dvd_size : 8 ∣ r.size

theorem Node.words_request (n : Node) : n.request.Words :=
  ⟨rfl, by cases n <;> decide⟩

theorem Request.Words.align_dvd {r : Request} (h : r.Words) : r.align ∣ 16 := by
  rw [h.align_eq]
  decide

/-- Words take no more bytes than they have. -/
theorem Request.Words.roundUp_size {r : Request} (h : r.Words) :
    Arena.roundUp r.size r.align = r.size := by
  rw [h.align_eq]
  exact Arena.roundUp_of_dvd (by decide) h.dvd_size

namespace Arena

/-! ## Sizes of chunks -/

theorem powerAbove_le {n k : Nat} (h : n ≤ 1 <<< k) : powerAbove n ≤ 1 <<< k := by
  have hone : 1 ≤ 1 <<< k := by rw [Nat.one_shiftLeft]; exact Nat.one_le_two_pow
  unfold powerAbove
  split
  · exact hone
  · rw [Nat.one_shiftLeft] at h ⊢
    rw [Nat.one_shiftLeft]
    have hlog : (n - 1).log2 < k := (Nat.log2_lt (by omega)).2 (by omega)
    exact Nat.pow_le_pow_right (by decide) hlog

theorem exists_powerAbove (n : Nat) : ∃ k, powerAbove n = 1 <<< k := by
  unfold powerAbove
  split
  · exact ⟨0, rfl⟩
  · exact ⟨_, rfl⟩

/-- With the overhead, the chunk is a power of two, or whole pages from one page on. -/
def IsChunk (n : Nat) : Prop :=
  (n < 4096 ∧ ∃ k, n + overhead = 1 <<< k) ∨ (4096 ≤ n ∧ 4096 ∣ n + overhead)

theorem isChunk_leastChunk : IsChunk leastChunk :=
  .inl ⟨by decide, 9, rfl⟩

theorem isChunk_chunkSize (base size : Nat) : IsChunk (chunkSize base size) := by
  unfold chunkSize
  dsimp only
  generalize max base (roundUp size 16) = m
  split
  · have hle := le_powerAbove (m + overhead)
    by_cases hpage : m + overhead ≤ 1 <<< 12
    · have hpower := powerAbove_le hpage
      obtain ⟨k, hk⟩ := exists_powerAbove (m + overhead)
      simp only [overhead] at hle hpower hk ⊢
      exact .inl ⟨by omega, k, by simp only [overhead]; omega⟩
    · have hdvd : 4096 ∣ powerAbove (m + overhead) := dvd_powerAbove (Nat.lt_of_not_le hpage)
      simp only [overhead] at hle hdvd hpage ⊢
      exact .inr ⟨by omega, by simp only [overhead]; omega⟩
  · rename_i hm
    have hle := le_roundUp (m + overhead) 4096 (by decide)
    refine .inr ⟨by omega, ?_⟩
    rw [Nat.sub_add_cancel (by omega)]
    exact dvd_roundUp _ _

/-- A chunk is as large as one asked for with its size. -/
theorem IsChunk.chunkSize_eq {n size : Nat} (h : IsChunk n) (hd : 16 ∣ n) (hs : size ≤ n) :
    chunkSize n size = n := by
  have hmax : max n (roundUp size 16) = n := Nat.max_eq_left (roundUp_le (by decide) hs hd)
  unfold chunkSize
  dsimp only
  rw [hmax]
  rcases h with ⟨hlt, k, hk⟩ | ⟨hle, hdvd⟩
  · have hpower : powerAbove (1 <<< k) = 1 <<< k :=
      Nat.le_antisymm (powerAbove_le (Nat.le_refl _)) (le_powerAbove _)
    rw [if_pos hlt, hk, hpower, ← hk, Nat.add_sub_cancel]
  · rw [if_neg (Nat.not_lt.2 hle), roundUp_of_dvd (by decide) hdvd, Nat.add_sub_cancel]

/-! ## Chunks of two arenas -/

variable {a a' b : Arena} {size base n : Nat} {r : Request}

/-- The first size is taken if there is room for it. -/
theorem findChunk_of_le (hb : max size leastChunk ≤ base) (hn : chunkSize base size ≤ a.remaining) :
    a.findChunk size base = some (chunkSize base size) := by
  have hpos : base ≠ 0 := by
    simp only [leastChunk] at hb
    omega
  have htry : a.mayTry size base := by simp [mayTry, hb]
  rw [findChunk, if_neg hpos, if_pos htry]
  exact if_pos hn

/-- Where the greater arena tries all sizes that the other one tries, it takes the same chunk or one
that the other has no room for. -/
theorem findChunk_mono (hlimit : a.limit ≤ b.limit) (hall : b.allocated = a.allocated)
    (htry : ∀ base, a.mayTry size base → b.mayTry size base) (h : a.findChunk size base = some n) :
    ∃ n', b.findChunk size base = some n' ∧ (n' = n ∨ a.remaining < n') := by
  fun_induction findChunk a size base with
  | case1 => cases h
  | case2 base hpos hbase chunk hn =>
    obtain rfl := Option.some.inj h
    have hroom : chunkSize base size ≤ b.remaining := by
      simp only [remaining] at hn ⊢
      omega
    refine ⟨_, ?_, .inl rfl⟩
    rw [findChunk, if_neg hpos, if_pos (htry base hbase)]
    exact if_pos hroom
  | case3 base hpos hbase chunk hn ih =>
    rw [findChunk, if_neg hpos, if_pos (htry base hbase)]
    by_cases hroom : chunkSize base size ≤ b.remaining
    · exact ⟨chunk, if_pos hroom, .inr (Nat.lt_of_not_le hn)⟩
    · obtain ⟨n', hn', hor⟩ := ih h
      exact ⟨n', (if_neg hroom).trans hn', hor⟩
  | case4 => cases h

/-- The first chunk of an arena whose limit is not below the least size. -/
theorem findChunk_first (hsize : size ≤ leastChunk) (hall : a.allocated = 0)
    (hlimit : leastChunk ≤ a.limit) : a.findChunk size leastChunk = some leastChunk := by
  have hchunk : chunkSize leastChunk size = leastChunk :=
    isChunk_leastChunk.chunkSize_eq (by decide) hsize
  have hroom : chunkSize leastChunk size ≤ a.remaining := by
    rw [hchunk, remaining, hall]
    exact hlimit
  rw [findChunk_of_le (Nat.max_le.2 ⟨hsize, Nat.le_refl _⟩) hroom, hchunk]

/-- Two arenas that took the same chunks take the same again, or the greater one takes a chunk that
the other has no room for. -/
theorem findChunk_next (hlimit : a.limit ≤ b.limit) (hall : b.allocated = a.allocated)
    (hchunk : a.chunk ≤ a.allocated)
    (h : a.findChunk size (max (2 * a.chunk) (max size leastChunk)) = some n) :
    ∃ n', b.findChunk size (max (2 * a.chunk) (max size leastChunk)) = some n' ∧
      (n' = n ∨ a.remaining < n') := by
  by_cases hcross : a.allocated = 0 ∧ a.limit < leastChunk ∧ leastChunk ≤ b.limit
  · -- only the smaller arena would go below the least size, but the other one has room for it
    obtain ⟨hzero, hbelow, habove⟩ := hcross
    obtain ⟨hn, hsize, -⟩ := findChunk_eq_some h
    have hle : size ≤ leastChunk := by
      simp only [remaining] at hn
      omega
    have hbase : max (2 * a.chunk) (max size leastChunk) = leastChunk := by omega
    refine ⟨leastChunk, ?_, .inr ?_⟩
    · rw [hbase]
      exact findChunk_first hle (hall.trans hzero) habove
    · simp only [remaining]
      omega
  · refine findChunk_mono hlimit hall (fun base htry => ?_) h
    simp only [mayTry, Bool.or_eq_true, Bool.and_eq_true, decide_eq_true_eq, beq_iff_eq] at htry ⊢
    omega

/-! ## Requests for words -/

theorem fits_words_iff (hr : r.Words) (h : 8 ∣ a.free) :
    a.fits r ↔ 0 < a.chunk ∧ r.size ≤ a.free := by
  rw [fits_iff, hr.roundUp_size, hr.align_eq, roundDown_of_dvd h]

/-- Words leave no bytes between them. -/
theorem free_carve_words (hr : r.Words) (h : 8 ∣ a.free) : (a.carve r).free = a.free - r.size := by
  rw [carve, hr.roundUp_size, hr.align_eq, roundDown_of_dvd h]

/-! ## Requests of two arenas -/

/-- The bytes that an arena can still give. -/
def supply (a : Arena) : Nat :=
  a.free + a.remaining

theorem supply_carve_le (hr : r.Words) (h : roundUp r.size r.align ≤ roundDown a.free r.align) :
    (a.carve r).supply + r.size ≤ a.supply := by
  have hdown := roundDown_le a.free r.align
  rw [hr.roundUp_size] at h
  simp only [supply, carve, remaining, hr.roundUp_size]
  omega

theorem supply_grow (h : n ≤ a.remaining) : (a.grow n).supply = a.remaining := by
  simp only [supply, grow, remaining] at h ⊢
  omega

/-- A new chunk serves the request it was taken for. -/
theorem supply_grow_carve_le (hr : r.Words) (h : a.findChunk r.size base = some n) :
    ((a.grow n).carve r).supply + r.size ≤ a.remaining := by
  obtain ⟨hn, -, -⟩ := findChunk_eq_some h
  rw [← supply_grow hn]
  exact supply_carve_le hr (room_of_findChunk hr.align_dvd h)

theorem supply_alloc_le (hr : r.Words) (h : a.alloc r = .ok a') :
    a'.supply + r.size ≤ a.supply := by
  rcases alloc_eq_ok h with ⟨hfits, rfl⟩ | ⟨-, n, hn, rfl⟩
  · exact supply_carve_le hr (fits_iff.1 hfits).2
  · exact Nat.le_trans (supply_grow_carve_le hr hn) (Nat.le_add_left _ _)

/-- Whatever `a` serves, `b` serves: both took the same chunks, or the free bytes of `b` are no
fewer than those that `a` can still give. -/
inductive Covers (a b : Arena) : Prop
  | same : a.limit ≤ b.limit → b.allocated = a.allocated → b.chunk = a.chunk → b.free = a.free →
    a.chunk ≤ a.allocated → Covers a b
  | ahead : a.supply ≤ b.free → 0 < b.chunk → 8 ∣ b.free → Covers a b

theorem covers_initial {limit limit' : Nat} (h : limit ≤ limit') :
    Covers { limit := limit } { limit := limit' } :=
  .same h rfl rfl rfl (Nat.le_refl _)

/-- Arenas that took the same chunks serve a request alike, or the greater one gets ahead. -/
theorem Covers.alloc_same (hlimit : a.limit ≤ b.limit) (hall : b.allocated = a.allocated)
    (hchunk : b.chunk = a.chunk) (hfree : b.free = a.free) (hle : a.chunk ≤ a.allocated)
    (hr : r.Words) (ha : a.alloc r = .ok a') : ∃ b', b.alloc r = .ok b' ∧ Covers a' b' := by
  have hfits : b.fits r = a.fits r := by simp only [fits, hchunk, hfree]
  rcases alloc_eq_ok ha with ⟨hyes, rfl⟩ | ⟨hno, n, hn, rfl⟩
  · refine ⟨b.carve r, if_pos (hfits.trans hyes), .same hlimit hall hchunk ?_ hle⟩
    simp only [carve, hfree]
  · obtain ⟨n', hn', hor⟩ := findChunk_next hlimit hall hle hn
    have hb : b.alloc r = .ok ((b.grow n').carve r) := by
      rw [Arena.alloc, if_neg (hfits ▸ hno), hchunk, hn']
    refine ⟨_, hb, ?_⟩
    rcases hor with rfl | hlt
    · refine .same hlimit ?_ rfl rfl ?_ <;> simp only [grow, carve] <;> omega
    · -- the chunk of `b` alone is more than `a` had left, and `a` serves the request out of that
      obtain ⟨-, -, hdvd⟩ := findChunk_eq_some hn'
      have hsupply := supply_grow_carve_le hr hn
      have hdvd : 8 ∣ n' := Nat.dvd_trans (by decide) hdvd
      have hfree : ((b.grow n').carve r).free = n' - r.size := free_carve_words hr hdvd
      refine .ahead ?_ (Nat.zero_lt_of_lt hlt) ?_ <;> rw [hfree]
      · omega
      · exact Nat.dvd_sub hdvd hr.dvd_size

/-- What an arena covers, it covers after the next request, which both serve. -/
theorem Covers.alloc (h : Covers a b) (hr : r.Words) (ha : a.alloc r = .ok a') :
    ∃ b', b.alloc r = .ok b' ∧ Covers a' b' := by
  cases h with
  | same hlimit hall hchunk hfree hle =>
    exact alloc_same hlimit hall hchunk hfree hle hr ha
  | ahead hsupply hchunk hdvd =>
    have hle := supply_alloc_le hr ha
    -- words leave no bytes between them, so `b` serves its chunk to the end
    have hfits : b.fits r := (fits_words_iff hr hdvd).2 ⟨hchunk, by omega⟩
    refine ⟨b.carve r, if_pos hfits, .ahead ?_ hchunk ?_⟩ <;> rw [free_carve_words hr hdvd]
    · omega
    · exact Nat.dvd_sub hdvd hr.dvd_size

/-- An arena serves all requests that one it covers serves. -/
theorem Covers.serve {rs : List Request} (h : Covers a b) (hr : ∀ r ∈ rs, r.Words)
    (hs : (a.serve rs).1 = none) : (b.serve rs).1 = none := by
  induction rs generalizing a b with
  | nil => rfl
  | cons r rs ih =>
    obtain ⟨hr, hrs⟩ := List.forall_mem_cons.1 hr
    rw [Arena.serve] at hs
    split at hs
    · rename_i a₁ ha
      obtain ⟨b₁, hb, hcovers⟩ := h.alloc hr ha
      rw [Arena.serve, hb]
      exact ih hcovers hrs hs
    · cases hs

end Arena

end Kei
