import Kei.Proofs.Memory.Room

/-!
# Fewer requests

An arena that serves small requests also serves what is left when some of them are left out. Its
chunks do not depend on the requests: a small request takes the chunk that every other small one
would have taken (`findChunk_small`). So an arena with fewer requests to serve goes through the same
chunks, and is never ahead of the other one (`Behind`).
-/

namespace Kei.Arena

variable {a a' b : Arena} {r : Request} {size base n : Nat}

/-! ## Chunks for small requests -/

theorem sixtyFour_le_chunkSize (hb : base ≠ 0) : 64 ≤ chunkSize base size := by
  have hmax := max_le_chunkSize base size
  unfold chunkSize at hmax ⊢
  dsimp only at hmax ⊢
  split
  · have hle := le_powerAbove (max base (roundUp size 16) + overhead)
    have hdvd : 64 ∣ powerAbove (max base (roundUp size 16) + overhead) :=
      dvd_powerAbove (k := 6) (by simp only [overhead]; omega)
    simp only [overhead] at hle hdvd ⊢
    omega
  · split at hmax <;> omega

/-- No chunk is below 64 bytes, whatever the limit. -/
theorem sixtyFour_le_of_findChunk (h : a.findChunk size base = some n) : 64 ≤ n := by
  fun_induction findChunk a size base with
  | case1 => cases h
  | case2 base hpos _ chunk _ =>
    obtain rfl := Option.some.inj h
    exact sixtyFour_le_chunkSize hpos
  | case3 _ _ _ _ _ ih => exact ih h
  | case4 => cases h

theorem chunkSize_small (hs : size ≤ 32) (hb : 32 ≤ base) :
    chunkSize base size = chunkSize base 0 := by
  have hsize : roundUp size 16 ≤ 32 := roundUp_le (by decide) hs (by decide)
  have hzero : roundUp 0 16 = 0 := rfl
  unfold chunkSize
  dsimp only
  rw [Nat.max_eq_left (Nat.le_trans hsize hb), hzero, Nat.max_eq_left (Nat.zero_le base)]

/-- A base below 64 bytes makes a chunk of 64 bytes. -/
theorem chunkSize_le_sixtyFour (hs : size ≤ 32) (hb : 32 ≤ base) (hlt : base < 64) :
    chunkSize base size ≤ 64 := by
  have hpower : powerAbove (base + overhead) ≤ 1 <<< 7 :=
    powerAbove_le (by simp only [overhead]; omega)
  rw [chunkSize_small hs hb]
  unfold chunkSize
  dsimp only
  rw [show max base (roundUp 0 16) = base from Nat.max_eq_left (Nat.zero_le base),
    if_pos (by omega)]
  simp only [overhead] at hpower ⊢
  omega

theorem mayTry_small (hlimit : 64 ≤ a.limit) (hs : size ≤ 32) (hb : 32 ≤ base) :
    a.mayTry size base = a.mayTry 0 base := by
  have hleast : leastChunk = 448 := rfl
  rw [Bool.eq_iff_iff]
  simp only [mayTry, Bool.or_eq_true, Bool.and_eq_true, decide_eq_true_eq, beq_iff_eq]
  omega

/-- Which chunk a small request takes does not depend on its size. -/
theorem findChunk_small (hs : size ≤ 32) (hb : 32 ≤ base) :
    a.findChunk size base = a.findChunk 0 base := by
  by_cases hlimit : 64 ≤ a.limit
  · induction base using Nat.strongRecOn with
    | ind base ih =>
      rw [findChunk.eq_def a size, findChunk.eq_def a 0, mayTry_small hlimit hs hb,
        chunkSize_small hs hb]
      split
      · rfl
      split
      · rename_i htry
        dsimp only
        split
        · rfl
        · rename_i hroom
          refine ih (base / 2) (by omega) (Nat.le_of_not_lt fun hhalf => hroom ?_)
          -- a base so small is tried for the first chunk only, and 64 bytes are within the limit
          have hle := chunkSize_le_sixtyFour (Nat.zero_le 32) hb (by omega)
          have hleast : leastChunk = 448 := rfl
          simp only [mayTry, Bool.or_eq_true, Bool.and_eq_true, decide_eq_true_eq,
            beq_iff_eq] at htry
          simp only [remaining]
          omega
      · rfl
  · have hnone : ∀ size, a.findChunk size base = none := by
      intro size
      cases hn : a.findChunk size base with
      | none => rfl
      | some n =>
        have hle := (findChunk_eq_some hn).1
        have hge := sixtyFour_le_of_findChunk hn
        simp only [remaining] at hle
        omega
    rw [hnone, hnone]

/-- Which chunk is taken depends on the limit and on what was taken before. -/
theorem findChunk_congr (hlimit : b.limit = a.limit) (hall : b.allocated = a.allocated) :
    b.findChunk size base = a.findChunk size base := by
  induction base using Nat.strongRecOn with
  | ind base ih =>
    have htry : b.mayTry size base = a.mayTry size base := by simp only [mayTry, hlimit, hall]
    have hroom : b.remaining = a.remaining := by simp only [remaining, hlimit, hall]
    rw [findChunk.eq_def b, findChunk.eq_def a, htry, hroom]
    split
    · rfl
    · rw [ih (base / 2) (by omega)]

/-- The chunk that the arena takes when a small request does not fit. -/
def nextChunk (a : Arena) : Option Nat :=
  a.findChunk 0 (max (2 * a.chunk) leastChunk)

theorem nextChunk_congr (hlimit : b.limit = a.limit) (hall : b.allocated = a.allocated)
    (hchunk : b.chunk = a.chunk) : b.nextChunk = a.nextChunk := by
  rw [nextChunk, nextChunk, hchunk, findChunk_congr hlimit hall]

theorem findChunk_eq_nextChunk (hr : r.Small) :
    a.findChunk r.size (max (2 * a.chunk) (max r.size leastChunk)) = a.nextChunk := by
  have hs := hr.size_le
  have hbase : max r.size leastChunk = leastChunk :=
    Nat.max_eq_right (Nat.le_trans hs (by decide))
  rw [hbase, nextChunk]
  exact findChunk_small hs (Nat.le_trans (by decide) (Nat.le_max_right _ leastChunk))

/-! ## Arenas with the same chunks -/

/-- The arena `b` goes through the chunks of `a` and is not ahead: it has as much free in the same
chunk, or has chunks of `a` still to take. -/
inductive Behind : Arena → Arena → Prop
  | same {b a : Arena} : b.limit = a.limit → b.allocated = a.allocated → b.chunk = a.chunk →
    a.free ≤ b.free → Behind b a
  | later {b a : Arena} {n : Nat} : b.nextChunk = some n → Behind (b.grow n) a → Behind b a

theorem Behind.refl (a : Arena) : Behind a a :=
  .same rfl rfl rfl (Nat.le_refl _)

/-- A small request is served from the current chunk or from the next one. -/
theorem alloc_small (hr : r.Small) (h : a.alloc r = .ok a') :
    (a.fits r ∧ a' = a.carve r) ∨
      (¬ a.fits r ∧ ∃ n, a.nextChunk = some n ∧ a' = (a.grow n).carve r) := by
  have hcases := alloc_eq_ok h
  rwa [findChunk_eq_nextChunk hr] at hcases

theorem alloc_of_nextChunk (hr : r.Small) (hfits : ¬ a.fits r) (hn : a.nextChunk = some n) :
    a.alloc r = .ok ((a.grow n).carve r) := by
  rw [Arena.alloc, if_neg hfits, findChunk_eq_nextChunk hr, hn]

/-- The next chunk has room for a small request. -/
theorem fits_grow (hr : r.Small) (hn : a.nextChunk = some n) : (a.grow n).fits r := by
  have hpos := sixtyFour_le_of_findChunk hn
  obtain ⟨-, -, hdvd⟩ := findChunk_eq_some hn
  have hroom : r.size ≤ n := Nat.le_trans hr.size_le (Nat.le_trans (by decide) hpos)
  exact (fits_words_iff hr.toWords (Nat.dvd_trans (by decide) hdvd)).2
    ⟨Nat.lt_of_lt_of_le (by decide) hpos, hroom⟩

theorem carve_free_le (a : Arena) (r : Request) : (a.carve r).free ≤ a.free := by
  have hdown := roundDown_le a.free r.align
  simp only [carve]
  omega

theorem roundDown_mono {m k : Nat} (align : Nat) (h : m ≤ k) :
    roundDown m align ≤ roundDown k align :=
  Nat.mul_le_mul_right align (Nat.div_le_div_right h)

/-- Where `a` takes the next chunk, `b` has it still to take. -/
theorem Behind.of_nextChunk (hlimit : b.limit = a.limit) (hall : b.allocated = a.allocated)
    (hchunk : b.chunk = a.chunk) (hn : a.nextChunk = some n) (r : Request) :
    Behind b ((a.grow n).carve r) := by
  have hn' : b.nextChunk = some n := (nextChunk_congr hlimit hall hchunk).trans hn
  refine .later hn' (.same hlimit ?_ rfl (carve_free_le (a.grow n) r))
  simp only [grow, carve, hall]

/-- What one arena serves alone does not put the other one ahead. -/
theorem Behind.skip (h : Behind b a) (hr : r.Small) (ha : a.alloc r = .ok a') : Behind b a' := by
  induction h with
  | @same b a hlimit hall hchunk hfree =>
    rcases alloc_small hr ha with ⟨-, rfl⟩ | ⟨-, n, hn, rfl⟩
    · exact .same hlimit hall hchunk (Nat.le_trans (carve_free_le a r) hfree)
    · exact .of_nextChunk hlimit hall hchunk hn r
  | later hn _ ih => exact .later hn (ih ha)

/-- A request that one arena serves is served by the one behind it, which stays behind. -/
theorem Behind.alloc (h : Behind b a) (hr : r.Small) (ha : a.alloc r = .ok a') :
    ∃ b', b.alloc r = .ok b' ∧ Behind b' a' := by
  induction h with
  | @same b a hlimit hall hchunk hfree =>
    have hdown := roundDown_mono r.align hfree
    by_cases hfits : b.fits r
    · refine ⟨b.carve r, if_pos hfits, ?_⟩
      rcases alloc_small hr ha with ⟨-, rfl⟩ | ⟨-, n, hn, rfl⟩
      · exact .same hlimit hall hchunk (Nat.sub_le_sub_right hdown _)
      · exact .of_nextChunk (b := b.carve r) hlimit hall hchunk hn r
    · have hfits' : ¬ a.fits r := by
        rw [fits_iff, hchunk] at hfits
        rw [fits_iff]
        omega
      rcases alloc_small hr ha with ⟨hyes, -⟩ | ⟨-, n, hn, rfl⟩
      · exact absurd hyes hfits'
      · have hn' : b.nextChunk = some n := (nextChunk_congr hlimit hall hchunk).trans hn
        refine ⟨_, alloc_of_nextChunk hr hfits hn', .same hlimit ?_ rfl (Nat.le_refl _)⟩
        simp only [grow, carve, hall]
  | @later b a n hn hnext ih =>
    by_cases hfits : b.fits r
    · have hn' : (b.carve r).nextChunk = some n :=
        (nextChunk_congr (b := b.carve r) (a := b) rfl rfl rfl).trans hn
      exact ⟨b.carve r, if_pos hfits, .later hn' (hnext.skip hr ha)⟩
    · obtain ⟨b', hb', hbehind⟩ := ih ha
      refine ⟨b', ?_, hbehind⟩
      rw [alloc_of_nextChunk hr hfits hn, ← hb']
      exact (if_pos (fits_grow hr hn)).symm

theorem exists_alloc_of_serve {rs : List Request} (h : (a.serve (r :: rs)).1 = none) :
    ∃ a', a.alloc r = .ok a' ∧ (a'.serve rs).1 = none := by
  rw [Arena.serve] at h
  cases ha : a.alloc r with
  | error e => simp [ha] at h
  | ok a' => exact ⟨a', rfl, by rwa [ha] at h⟩

/-- Requests are served even where some of them are left out. -/
theorem Behind.serve_sublist {rs rs' : List Request} (h : Behind b a) (hsub : rs'.Sublist rs)
    (hr : ∀ r ∈ rs, r.Small) (hs : (a.serve rs).1 = none) : (b.serve rs').1 = none := by
  induction hsub generalizing a b with
  | slnil => rfl
  | @cons rs' rs r _ ih =>
    obtain ⟨hr, hrs⟩ := List.forall_mem_cons.1 hr
    obtain ⟨a', ha, hs'⟩ := exists_alloc_of_serve hs
    exact ih (h.skip hr ha) hrs hs'
  | @cons_cons rs' rs r _ ih =>
    obtain ⟨hr, hrs⟩ := List.forall_mem_cons.1 hr
    obtain ⟨a', ha, hs'⟩ := exists_alloc_of_serve hs
    obtain ⟨b', hb', hbehind⟩ := h.alloc hr ha
    rw [Arena.serve, hb']
    exact ih hbehind hrs hs'

end Kei.Arena
