import Kei.Proofs.Memory.Limits

/-!
# How much an arena serves

Two things keep an arena from serving as many bytes as its limit: the end of a chunk that is left
for the next one, and the end of the limit where no chunk fits any more. When all requests are
small, at most 24 bytes of each chunk are lost, and no chunk is below 448 bytes; and a request is
refused only when fewer bytes are left than the current chunk has, so more than half of the limit
was taken. Together an arena serves at least 53 parts in 112 of its limit (`Packed.serve`).
-/

namespace Kei

/-- The request is for at most four words. -/
structure Request.Small (r : Request) : Prop extends r.Words where
  size_le : r.size ≤ 32

theorem Node.small_request (n : Node) : n.request.Small :=
  { n.words_request with size_le := by cases n <;> decide }

namespace Arena

variable {a a' : Arena} {r : Request} {size base n used : Nat}

/-! ## Chunks found and not found -/

theorem mayTry_iff (hlimit : leastChunk ≤ a.limit) :
    a.mayTry size base ↔ max size leastChunk ≤ base := by
  simp only [mayTry, Bool.or_eq_true, Bool.and_eq_true, decide_eq_true_eq]
  omega

/-- No chunk is below the least size, unless the limit is. -/
theorem isChunk_of_findChunk (hlimit : leastChunk ≤ a.limit) (h : a.findChunk size base = some n) :
    leastChunk ≤ n ∧ IsChunk n := by
  fun_induction findChunk a size base with
  | case1 => cases h
  | case2 base _ htry chunk _ =>
    obtain rfl := Option.some.inj h
    have hbase := (mayTry_iff hlimit).1 htry
    have hle := base_le_chunkSize base size
    exact ⟨by omega, isChunk_chunkSize base size⟩
  | case3 _ _ _ _ _ ih => exact ih h
  | case4 => cases h

/-- Where no chunk is found, there is no room for one of half the size. -/
theorem remaining_lt_of_findChunk (hn : leastChunk ≤ n) (hs : size ≤ n) (hchunk : IsChunk n)
    (hd : 16 ∣ n) (h : a.findChunk size (2 * n) = none) : a.remaining < n := by
  have htwice : max size leastChunk ≤ 2 * n := by omega
  have hpos : 2 * n ≠ 0 := by
    simp only [leastChunk] at hn
    omega
  refine Nat.lt_of_not_le fun hroom => ?_
  have hsize : chunkSize n size = n := hchunk.chunkSize_eq hd hs
  have hhalf : a.findChunk size (2 * n / 2) = some n := by
    rw [Nat.mul_div_cancel_left n (by decide),
      findChunk_of_le (Nat.max_le.2 ⟨hs, hn⟩) (hsize.symm ▸ hroom), hsize]
  rw [findChunk, if_neg hpos, if_pos (by simp [mayTry, htwice])] at h
  dsimp only at h
  split at h
  · cases h
  · rw [hhalf] at h
    cases h

/-! ## Requests -/

/-- The arena has served `used` bytes and lost at most 24 bytes of each chunk that it left. -/
structure Packed (a : Arena) (used : Nat) : Prop where
  allocated_le : 53 * a.allocated ≤ 56 * (used + a.free)
  dvd_free : 8 ∣ a.free
  fresh_or_chunk : (a.chunk = 0 ∧ a.allocated = 0) ∨
    (leastChunk ≤ a.chunk ∧ a.chunk ≤ a.allocated ∧ IsChunk a.chunk ∧ 16 ∣ a.chunk)

theorem packed_initial (limit : Nat) : ({ limit } : Arena).Packed 0 :=
  ⟨Nat.le_refl _, Nat.dvd_zero 8, .inl ⟨rfl, rfl⟩⟩

/-- A chunk that a small request does not fit into has at most 24 bytes free. -/
theorem Packed.free_lt (h : a.Packed used) (hr : r.Small) (hfits : ¬ a.fits r)
    (hpos : 0 < a.chunk) : a.free < r.size := by
  rw [fits_words_iff hr.toWords h.dvd_free] at hfits
  omega

theorem Packed.alloc (h : a.Packed used) (hlimit : leastChunk ≤ a.limit) (hr : r.Small)
    (ha : a.alloc r = .ok a') : a'.Packed (used + r.size) ∧ a'.limit = a.limit := by
  have hle := h.allocated_le
  have hdvd := h.dvd_free
  have hrdvd := hr.dvd_size
  rcases alloc_eq_ok ha with ⟨hfits, rfl⟩ | ⟨hfits, n, hn, rfl⟩
  · rw [fits_words_iff hr.toWords hdvd] at hfits
    have hfree : (a.carve r).free = a.free - r.size := free_carve_words hr.toWords hdvd
    refine ⟨⟨?_, ?_, h.fresh_or_chunk⟩, rfl⟩ <;> rw [hfree]
    · have hall : (a.carve r).allocated = a.allocated := rfl
      omega
    · exact Nat.dvd_sub hdvd hrdvd
  · obtain ⟨-, hsize, hdvd'⟩ := findChunk_eq_some hn
    obtain ⟨hleast, hchunk⟩ := isChunk_of_findChunk hlimit hn
    have hfree : ((a.grow n).carve r).free = n - r.size :=
      free_carve_words hr.toWords (Nat.dvd_trans (by decide) hdvd')
    have hall : ((a.grow n).carve r).allocated = a.allocated + n := rfl
    refine ⟨⟨?_, ?_, .inr ⟨hleast, ?_, hchunk, hdvd'⟩⟩, rfl⟩
    · rw [hfree, hall]
      rcases h.fresh_or_chunk with ⟨-, hzero⟩ | ⟨hpos, -⟩
      · omega
      · -- at most 24 bytes are lost, and three parts in 56 of a new chunk make up for them
        have hlost := h.free_lt hr hfits (by simp only [leastChunk] at hpos; omega)
        have hsmall := hr.size_le
        simp only [leastChunk] at hleast
        omega
    · rw [hfree]
      exact Nat.dvd_sub (Nat.dvd_trans (by decide) hdvd') hrdvd
    · rw [hall]
      exact Nat.le_add_left _ _

/-- A request is refused only when more than half of the limit was taken. -/
theorem Packed.limit_lt (h : a.Packed used) (hlimit : leastChunk ≤ a.limit) (hr : r.Small)
    {e : Refusal} (ha : a.alloc r = .error e) : 53 * a.limit < 112 * (used + r.size) := by
  have hsmall : r.size ≤ leastChunk := Nat.le_trans hr.size_le (by decide)
  unfold Arena.alloc at ha
  split at ha
  · cases ha
  rename_i hfits
  split at ha
  · cases ha
  rename_i hnone
  rcases h.fresh_or_chunk with ⟨hzero, hall⟩ | ⟨hleast, hchunk, hn, hdvd⟩
  · have hbase : max (2 * a.chunk) (max r.size leastChunk) = leastChunk := by omega
    rw [hbase, findChunk_first hsmall hall hlimit] at hnone
    cases hnone
  · have hbase : max (2 * a.chunk) (max r.size leastChunk) = 2 * a.chunk := by omega
    rw [hbase] at hnone
    have hroom := remaining_lt_of_findChunk hleast (by omega) hn hdvd hnone
    have hfree := h.free_lt hr hfits (by simp only [leastChunk] at hleast; omega)
    have hle := h.allocated_le
    simp only [remaining] at hroom
    omega

/-- An arena serves all small requests for at most 53 parts in 112 of its limit. -/
theorem Packed.serve {rs : List Request} (h : a.Packed used) (hlimit : leastChunk ≤ a.limit)
    (hr : ∀ r ∈ rs, r.Small) (htotal : 112 * (used + Request.total rs) ≤ 53 * a.limit) :
    (a.serve rs).1 = none := by
  induction rs generalizing a used with
  | nil => rfl
  | cons r rs ih =>
    obtain ⟨hr, hrs⟩ := List.forall_mem_cons.1 hr
    rw [Request.total] at htotal
    rw [Arena.serve]
    cases ha : a.alloc r with
    | ok a' =>
      obtain ⟨h', hlimit'⟩ := h.alloc hlimit hr ha
      exact ih h' (hlimit'.symm ▸ hlimit) hrs (by rw [hlimit']; omega)
    | error e =>
      have hlt := h.limit_lt hlimit hr ha
      omega

end Arena

end Kei
