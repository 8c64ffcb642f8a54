import Kei.Memory.Node

/-!
# Serving requests

A chunk that an arena takes has room for the request that made it take one (`room_of_findChunk`):
its size is a multiple of 16, so nothing of a fresh chunk is lost to alignment. From this, by
induction over the requests: what an arena serves never exceeds the chunks it took, and these never
exceed its limit (`Holds.serve`). A refusal comes after all requests before it were served
(`exists_refused`).
-/

namespace Kei

/-- The bytes that requests ask for. -/
def Request.total : List Request → Nat
  | [] => 0
  | r :: rs => r.size + total rs

namespace Arena

/-! ## Rounding -/

theorem roundDown_le (n align : Nat) : roundDown n align ≤ n :=
  Nat.div_mul_le_self n align

theorem roundDown_of_dvd {n align : Nat} (h : align ∣ n) : roundDown n align = n :=
  Nat.div_mul_cancel h

theorem dvd_roundDown (n align : Nat) : align ∣ roundDown n align :=
  Nat.dvd_mul_left _ _

theorem dvd_roundUp (n align : Nat) : align ∣ roundUp n align :=
  Nat.dvd_mul_left _ _

theorem le_roundUp (n align : Nat) (h : 0 < align) : n ≤ roundUp n align := by
  have hdiv := Nat.div_add_mod (n + align - 1) align
  have hmod := Nat.mod_lt (n + align - 1) h
  rw [Nat.mul_comm] at hdiv
  unfold roundUp
  omega

theorem roundUp_of_dvd {n align : Nat} (hpos : 0 < align) (h : align ∣ n) :
    roundUp n align = n := by
  obtain ⟨k, rfl⟩ := h
  have hdiv : (align * k + align - 1) / align = k := by
    rw [Nat.add_sub_assoc hpos, Nat.mul_add_div hpos, Nat.div_eq_of_lt (by omega), Nat.add_zero]
  rw [roundUp, hdiv, Nat.mul_comm]

theorem roundUp_le {n m align : Nat} (hpos : 0 < align) (h : n ≤ m) (hd : align ∣ m) :
    roundUp n align ≤ m := by
  have hdiv := Nat.div_le_div_right (c := align) (show n + align - 1 ≤ m + align - 1 by omega)
  calc roundUp n align ≤ roundUp m align := Nat.mul_le_mul_right align hdiv
    _ = m := roundUp_of_dvd hpos hd

theorem le_powerAbove (n : Nat) : n ≤ powerAbove n := by
  unfold powerAbove
  split
  · assumption
  · have := Nat.lt_log2_self (n := n - 1)
    rw [Nat.one_shiftLeft]
    omega

theorem dvd_powerAbove {k n : Nat} (h : 1 <<< k < n) : 1 <<< k ∣ powerAbove n := by
  rw [Nat.one_shiftLeft] at h ⊢
  have hone : 1 ≤ 2 ^ k := Nat.one_le_two_pow
  rw [powerAbove, if_neg (by omega), Nat.one_shiftLeft]
  have : k ≤ (n - 1).log2 := (Nat.le_log2 (by omega)).2 (by omega)
  exact Nat.pow_dvd_pow 2 (by omega)

/-! ## Chunks -/

theorem sixteen_dvd_chunkSize (base size : Nat) : 16 ∣ chunkSize base size := by
  unfold chunkSize
  dsimp only
  split
  · refine Nat.dvd_sub (dvd_powerAbove (k := 4) ?_) (by decide)
    simp only [overhead]
    omega
  · exact Nat.dvd_sub (Nat.dvd_trans (by decide) (dvd_roundUp _ 4096)) (by decide)

theorem max_le_chunkSize (base size : Nat) :
    max base (roundUp size 16) ≤ chunkSize base size := by
  unfold chunkSize
  dsimp only
  split
  · have := le_powerAbove (max base (roundUp size 16) + overhead)
    omega
  · have := le_roundUp (max base (roundUp size 16) + overhead) 4096 (by decide)
    omega

theorem base_le_chunkSize (base size : Nat) : base ≤ chunkSize base size :=
  Nat.le_trans (Nat.le_max_left _ _) (max_le_chunkSize base size)

theorem size_le_chunkSize (base size : Nat) : size ≤ chunkSize base size :=
  calc size ≤ roundUp size 16 := le_roundUp size 16 (by decide)
    _ ≤ max base (roundUp size 16) := Nat.le_max_right _ _
    _ ≤ chunkSize base size := max_le_chunkSize base size

theorem findChunk_eq_some {a : Arena} {size base n : Nat} (h : a.findChunk size base = some n) :
    n ≤ a.remaining ∧ size ≤ n ∧ 16 ∣ n := by
  fun_induction findChunk a size base with
  | case1 => cases h
  | case2 base _ _ chunk hn =>
    obtain rfl := Option.some.inj h
    exact ⟨hn, size_le_chunkSize _ _, sixteen_dvd_chunkSize _ _⟩
  | case3 _ _ _ _ _ ih => exact ih h
  | case4 => cases h

/-! ## Requests -/

theorem fits_iff {a : Arena} {r : Request} :
    a.fits r ↔ 0 < a.chunk ∧ roundUp r.size r.align ≤ roundDown a.free r.align := by
  simp [fits]

/-- A new chunk has room for the request that it was taken for. -/
theorem room_of_findChunk {a : Arena} {r : Request} {base n : Nat} (hr : r.align ∣ 16)
    (h : a.findChunk r.size base = some n) :
    roundUp r.size r.align ≤ roundDown (a.grow n).free r.align := by
  obtain ⟨-, hsize, hdvd⟩ := findChunk_eq_some h
  have hdvd := Nat.dvd_trans hr hdvd
  rw [show (a.grow n).free = n from rfl, roundDown_of_dvd hdvd]
  exact roundUp_le (Nat.pos_of_dvd_of_pos hr (by decide)) hsize hdvd

/-- A request is served from the current chunk or from a new one. -/
theorem alloc_eq_ok {a a' : Arena} {r : Request} (h : a.alloc r = .ok a') :
    (a.fits r ∧ a' = a.carve r) ∨
      (¬ a.fits r ∧ ∃ n, a.findChunk r.size (max (2 * a.chunk) (max r.size leastChunk)) = some n ∧
        a' = (a.grow n).carve r) := by
  unfold Arena.alloc at h
  split at h
  · cases h
    exact .inl ⟨‹_›, rfl⟩
  · split at h <;> cases h
    exact .inr ⟨‹_›, _, ‹_›, rfl⟩

/-- The arena keeps to its limit and has room for `used` bytes beside those still free. -/
structure Holds (a : Arena) (used : Nat) : Prop where
  used_add_free : used + a.free ≤ a.allocated
  allocated_le : a.allocated ≤ a.limit

theorem holds_initial (limit : Nat) : ({ limit } : Arena).Holds 0 :=
  ⟨Nat.le_refl _, Nat.zero_le _⟩

theorem Holds.carve {a : Arena} {used : Nat} {r : Request} (h : a.Holds used) (hpos : 0 < r.align)
    (hr : roundUp r.size r.align ≤ roundDown a.free r.align) :
    (a.carve r).Holds (used + r.size) := by
  have hdown := roundDown_le a.free r.align
  have hup := le_roundUp r.size r.align hpos
  have hfree := h.used_add_free
  refine ⟨?_, h.allocated_le⟩
  simp only [Arena.carve]
  omega

/-- A new chunk within the limit gives room for `n` bytes more. -/
theorem Holds.grow {a : Arena} {used n : Nat} (h : a.Holds used) (hn : n ≤ a.remaining) :
    (a.grow n).Holds used := by
  have hfree := h.used_add_free
  have hlimit := h.allocated_le
  simp only [remaining] at hn
  refine ⟨?_, ?_⟩ <;> simp only [Arena.grow] <;> omega

theorem Holds.alloc {a a' : Arena} {used : Nat} {r : Request} (h : a.Holds used)
    (hr : r.align ∣ 16) (ha : a.alloc r = .ok a') :
    a'.Holds (used + r.size) ∧ a'.limit = a.limit := by
  have hpos := Nat.pos_of_dvd_of_pos hr (by decide)
  rcases alloc_eq_ok ha with ⟨hfits, rfl⟩ | ⟨-, n, hn, rfl⟩
  · exact ⟨h.carve hpos (fits_iff.1 hfits).2, rfl⟩
  · obtain ⟨hle, -, -⟩ := findChunk_eq_some hn
    exact ⟨(h.grow hle).carve hpos (room_of_findChunk hr hn), rfl⟩

/-- The bytes of all requests that an arena served are within its limit. -/
theorem Holds.serve {a a' : Arena} {used : Nat} {rs : List Request} (h : a.Holds used)
    (hr : ∀ r ∈ rs, r.align ∣ 16) (hs : a.serve rs = (none, a')) :
    a'.Holds (used + Request.total rs) ∧ a'.limit = a.limit := by
  induction rs generalizing a used with
  | nil => cases hs; exact ⟨h, rfl⟩
  | cons r rest ih =>
    unfold Arena.serve at hs
    split at hs
    · rename_i a₁ ha
      obtain ⟨h₁, hlimit⟩ := h.alloc (hr r (by simp)) ha
      obtain ⟨h₂, hlimit'⟩ := ih h₁ (fun r h => hr r (List.mem_cons_of_mem _ h)) hs
      refine ⟨?_, hlimit'.trans hlimit⟩
      simpa [Request.total, Nat.add_assoc] using h₂
    · cases hs

/-- Requests are served after others unless one of those was refused. -/
theorem serve_append (a : Arena) (rs rest : List Request) :
    a.serve (rs ++ rest) =
      match a.serve rs with
      | (none, a') => a'.serve rest
      | (some refusal, a') => (some refusal, a') := by
  induction rs generalizing a with
  | nil => rfl
  | cons r rs ih =>
    rw [List.cons_append, Arena.serve, Arena.serve]
    cases a.alloc r with
    | ok a' => exact ih a'
    | error e => rfl

theorem serve_append_eq_none_iff {a a'' : Arena} {rs rest : List Request} :
    a.serve (rs ++ rest) = (none, a'') ↔
      ∃ a', a.serve rs = (none, a') ∧ a'.serve rest = (none, a'') := by
  rw [serve_append]
  rcases a.serve rs with ⟨_ | refusal, a'⟩ <;> simp

/-! ## Refusals -/

/-- A refusal carries the size of the request and the limit of the arena. -/
theorem alloc_eq_error {a : Arena} {r : Request} {refusal : Refusal}
    (h : a.alloc r = .error refusal) : refusal = ⟨r.size, a.limit⟩ := by
  unfold Arena.alloc at h
  split at h
  · cases h
  · split at h <;> cases h
    rfl

theorem alloc_limit {a a' : Arena} {r : Request} (h : a.alloc r = .ok a') : a'.limit = a.limit := by
  rcases alloc_eq_ok h with ⟨-, rfl⟩ | ⟨-, n, -, rfl⟩ <;> rfl

/-- The first request that is refused, after all those before it are served. -/
theorem exists_refused {a a' : Arena} {rs : List Request} {refusal : Refusal}
    (h : a.serve rs = (some refusal, a')) :
    ∃ before r rest, rs = before ++ r :: rest ∧ a.serve before = (none, a') ∧
      a'.alloc r = .error refusal ∧ refusal = ⟨r.size, a.limit⟩ := by
  induction rs generalizing a with
  | nil => cases h
  | cons r rs ih =>
    rw [Arena.serve] at h
    cases hr : a.alloc r with
    | error e =>
      rw [hr] at h
      obtain ⟨he, rfl⟩ := Prod.mk.inj h
      obtain rfl := Option.some.inj he
      exact ⟨[], r, rs, rfl, rfl, hr, alloc_eq_error hr⟩
    | ok a₁ =>
      rw [hr] at h
      obtain ⟨before, r', rest, rfl, hbefore, hr', hrefusal⟩ := ih h
      refine ⟨r :: before, r', rest, rfl, ?_, hr', ?_⟩
      · rw [Arena.serve, hr]
        exact hbefore
      · rw [hrefusal, alloc_limit hr]

end Arena

end Kei
