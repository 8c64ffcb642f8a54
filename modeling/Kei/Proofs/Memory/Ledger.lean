import Kei.Memory.Ledger
import Kei.Proofs.Memory.Serving

/-!
# What an arena grants

Whatever is asked of an arena, the ledger stays in order (`Ledger.Sound`): the chunks are those that
the arena counts and within its limit, and every grant lies in its chunk, where it must and apart
from all others. A step is one of three (`Ledger.ask_cases`): the request is carved from the current
chunk, or from a new one that has room for it, or it is refused and nothing changes. Carving keeps
the ledger in order because all grants of the current chunk lie behind the bytes that are free.
-/

namespace Kei

theorem Request.Regular.align_dvd {r : Request} (hr : r.Regular) : r.align ∣ 16 := by
  obtain ⟨-, halign⟩ := hr
  simp only [List.mem_cons, List.not_mem_nil, or_false] at halign
  rcases halign with h | h | h | h | h <;> rw [h] <;> decide

theorem Request.Regular.align_pos {r : Request} (hr : r.Regular) : 0 < r.align :=
  Nat.pos_of_dvd_of_pos hr.align_dvd (by decide)

namespace Arena

variable {a : Arena} {size base : Nat} {r : Request}

/-! ## The search for a chunk -/

theorem not_mayTry_zero (hsize : 1 ≤ size) : ¬ a.mayTry size 0 := by
  have hleast : leastChunk = 448 := rfl
  simp only [mayTry, Bool.or_eq_true, Bool.and_eq_true, decide_eq_true_eq, beq_iff_eq]
  omega

/-- Each try takes one binary digit off the size. -/
theorem exists_search (hsize : 1 ≤ size) {digits : Nat} (hbase : base < 1 <<< digits) :
    ∃ tries ≤ digits, a.Search size base tries (a.findChunk size base) := by
  induction digits generalizing base with
  | zero =>
    obtain rfl : base = 0 := Nat.lt_one_iff.1 hbase
    refine ⟨0, Nat.le_refl 0, ?_⟩
    rw [findChunk, if_pos rfl]
    exact .refused (not_mayTry_zero hsize)
  | succ digits ih =>
    by_cases htry : a.mayTry size base
    · have hpos : base ≠ 0 := by
        rintro rfl
        exact not_mayTry_zero hsize htry
      rw [findChunk, if_neg hpos, if_pos htry]
      by_cases hroom : chunkSize base size ≤ a.remaining
      · refine ⟨1, Nat.le_add_left 1 digits, ?_⟩
        dsimp only
        rw [if_pos hroom]
        exact .found htry hroom
      · have hhalf : base / 2 < 1 <<< digits := by
          rw [Nat.shiftLeft_succ] at hbase
          omega
        obtain ⟨tries, hle, hsearch⟩ := ih hhalf
        refine ⟨tries + 1, Nat.add_le_add_right hle 1, ?_⟩
        dsimp only
        rw [if_neg hroom]
        exact .halved htry (Nat.lt_of_not_le hroom) hsearch
    · refine ⟨0, Nat.zero_le _, ?_⟩
      rw [findChunk, if_neg htry, ite_self]
      exact .refused htry

theorem Search.unique {tries tries' : Nat} {result result' : Option Nat}
    (h : a.Search size base tries result) (h' : a.Search size base tries' result') :
    tries = tries' ∧ result = result' := by
  induction h generalizing tries' result' with
  | refused hno =>
    cases h' with
    | refused => exact ⟨rfl, rfl⟩
    | found htry => exact absurd htry hno
    | halved htry => exact absurd htry hno
  | found htry hroom =>
    cases h' with
    | refused hno => exact absurd htry hno
    | found => exact ⟨rfl, rfl⟩
    | halved _ hless => exact absurd hroom (Nat.not_le_of_lt hless)
  | halved htry hless _ ih =>
    cases h' with
    | refused hno => exact absurd htry hno
    | found _ hroom => exact absurd hroom (Nat.not_le_of_lt hless)
    | halved _ _ h' =>
      obtain ⟨rfl, rfl⟩ := ih h'
      exact ⟨rfl, rfl⟩

/-- The search for a chunk ends in one way, and tries no more sizes than the first one has binary
digits. -/
theorem search_iff (hsize : 1 ≤ size) (base : Nat) :
    ∃ tries ≤ base.log2 + 1, ∀ n result,
      a.Search size base n result ↔ n = tries ∧ result = a.findChunk size base := by
  have hdigits : base < 1 <<< (base.log2 + 1) := by
    rw [Nat.one_shiftLeft]
    exact Nat.lt_log2_self
  obtain ⟨tries, hle, hsearch⟩ := exists_search (a := a) hsize hdigits
  refine ⟨tries, hle, fun n result => ⟨fun h => h.unique hsearch, ?_⟩⟩
  rintro ⟨rfl, rfl⟩
  exact hsearch

/-! ## Requests -/

theorem fits_grow_of_findChunk {n : Nat} (hr : r.Regular)
    (hn : a.findChunk r.size base = some n) : (a.grow n).fits r := by
  obtain ⟨-, hsize, -⟩ := findChunk_eq_some hn
  exact fits_iff.2 ⟨Nat.le_trans hr.1 hsize, room_of_findChunk hr.align_dvd hn⟩

theorem serve_of_ok {a' : Arena} (h : a.alloc r = .ok a') : a.serve [r] = (none, a') := by
  rw [Arena.serve, h]
  rfl

theorem serve_of_error {refusal : Refusal} (h : a.alloc r = .error refusal) :
    a.serve [r] = (some refusal, a) := by
  rw [Arena.serve, h]

end Arena

namespace Ledger

variable {l : Ledger} {limit : Nat} {r : Request}

/-! ## Steps -/

/-- Take a new chunk of `n` bytes. -/
def take (l : Ledger) (n : Nat) : Ledger :=
  { l with arena := l.arena.grow n, chunks := l.chunks ++ [n] }

/-- What can be carved from the current chunk for a request. -/
def carved (l : Ledger) (r : Request) : Grant :=
  ⟨l.chunks.length - 1, (l.arena.carve r).free, r⟩

/-- Grant what is carved from the current chunk. -/
def grant (l : Ledger) (r : Request) : Ledger :=
  { l with arena := l.arena.carve r, grants := l.grants ++ [l.carved r] }

theorem forall_mem_grants_grant {p : Grant → Prop} :
    (∀ g ∈ (l.grant r).grants, p g) ↔ (∀ g ∈ l.grants, p g) ∧ p (l.carved r) := by
  rw [grant, List.forall_mem_append, List.forall_mem_singleton]

theorem granted_grant (l : Ledger) (r : Request) : (l.grant r).granted = l.granted + r.size := by
  rw [granted, grant, List.foldl_append]
  rfl

theorem taken_take (l : Ledger) (n : Nat) : (l.take n).taken = l.taken + n := by
  rw [taken, take, List.foldl_append]
  rfl

/-- A grant starts at a multiple of its alignment: a number of multiples is taken from one. -/
theorem dvd_start_carved (l : Ledger) (r : Request) : r.align ∣ (l.carved r).start :=
  Nat.dvd_sub (Arena.dvd_roundDown _ _) (Arena.dvd_roundUp _ _)

/-- A grant ends within what was free. -/
theorem stop_carved_le (hr : r.Regular) (hfits : l.arena.fits r) :
    (l.carved r).stop ≤ l.arena.free := by
  have hsize := Arena.le_roundUp r.size r.align hr.align_pos
  have hdown := Arena.roundDown_le l.arena.free r.align
  have hroom := (Arena.fits_iff.1 hfits).2
  simp only [Grant.stop, carved, Arena.carve]
  omega

/-- A request is granted from the current chunk, or from a new one that has room for it, or it is
refused and nothing changes. -/
theorem ask_cases (l : Ledger) (hr : r.Regular) :
    (l.arena.fits r ∧ l.ask r = l.grant r) ∨
    (∃ n ≤ l.arena.remaining, ¬ l.arena.fits r ∧ (l.take n).arena.fits r ∧
      l.ask r = (l.take n).grant r) ∨
    (l.arena.serve [r] = (some ⟨r.size, l.arena.limit⟩, l.arena) ∧ l.ask r = l) := by
  cases h : l.arena.alloc r with
  | ok a =>
    have hask : l.ask r = l.record r a := by rw [ask, Arena.serve_of_ok h]
    rcases Arena.alloc_eq_ok h with ⟨hfits, rfl⟩ | ⟨hfits, n, hn, rfl⟩
    · refine .inl ⟨hfits, hask.trans ?_⟩
      simp only [record, grant, carved, if_pos hfits]
    · obtain ⟨hle, -, -⟩ := Arena.findChunk_eq_some hn
      refine .inr (.inl ⟨n, hle, hfits, Arena.fits_grow_of_findChunk hr hn, hask.trans ?_⟩)
      simp only [record, grant, carved, take, if_neg hfits]
      rfl
  | error refusal =>
    have hserve := Arena.serve_of_error h
    rw [Arena.alloc_eq_error h] at hserve
    exact .inr (.inr ⟨hserve, by rw [ask, hserve]⟩)

/-! ## The ledger in order -/

/-- What holds of an arena of the given limit and its ledger at all times. -/
structure Sound (l : Ledger) (limit : Nat) : Prop where
  limit_eq : l.arena.limit = limit
  allocated_le : l.arena.allocated ≤ limit
  allocated_eq : l.arena.allocated = l.taken
  granted_le : l.granted ≤ l.arena.allocated
  regular : ∀ g ∈ l.grants, g.request.Regular
  aligned : ∀ g ∈ l.grants, g.request.align ∣ g.start
  inside : ∀ g ∈ l.grants, ∃ n, l.chunks[g.chunk]? = some n ∧ g.stop ≤ n
  apart : l.grants.Pairwise Grant.Apart

/-- Beside this, what the next step needs: the current chunk is the last one, and its free bytes
are before all that was granted of it and within what was not granted at all. -/
structure Kept (l : Ledger) (limit : Nat) : Prop extends l.Sound limit where
  current : 0 < l.arena.chunk → l.chunks[l.chunks.length - 1]? = some l.arena.chunk
  free_le_chunk : l.arena.free ≤ l.arena.chunk
  free_le_start : ∀ g ∈ l.grants, g.chunk + 1 = l.chunks.length → l.arena.free ≤ g.start
  granted_add_free : l.granted + l.arena.free ≤ l.arena.allocated

theorem kept_opened (limit : Nat) : (opened limit).Kept limit where
  limit_eq := rfl
  allocated_le := Nat.zero_le limit
  allocated_eq := rfl
  granted_le := Nat.le_refl 0
  regular := List.forall_mem_nil _
  aligned := List.forall_mem_nil _
  inside := List.forall_mem_nil _
  apart := .nil
  current := fun h => absurd h (Nat.lt_irrefl 0)
  free_le_chunk := Nat.le_refl 0
  free_le_start := List.forall_mem_nil _
  granted_add_free := Nat.le_refl 0

theorem Sound.chunk_lt (h : l.Sound limit) {g : Grant} (hg : g ∈ l.grants) :
    g.chunk < l.chunks.length := by
  obtain ⟨n, hn, -⟩ := h.inside g hg
  exact (List.getElem?_eq_some_iff.1 hn).1

theorem Kept.holds (h : l.Kept limit) : l.arena.Holds l.granted :=
  ⟨h.granted_add_free, h.limit_eq ▸ h.allocated_le⟩

theorem Kept.take {n : Nat} (h : l.Kept limit) (hn : n ≤ l.arena.remaining) :
    (l.take n).Kept limit := by
  have hholds := h.holds.grow hn
  exact {
    limit_eq := h.limit_eq
    allocated_le := h.limit_eq ▸ hholds.allocated_le
    allocated_eq := by
      rw [taken_take, ← h.allocated_eq]
      rfl
    granted_le := Nat.le_trans h.granted_le (Nat.le_add_right _ n)
    regular := h.regular
    aligned := h.aligned
    inside := by
      intro g hg
      obtain ⟨m, hm, hstop⟩ := h.inside g hg
      exact ⟨m, (List.getElem?_append_left (h.chunk_lt hg)).trans hm, hstop⟩
    apart := h.apart
    current := by
      intro _
      simp [Ledger.take, Arena.grow]
    free_le_chunk := Nat.le_refl n
    free_le_start := by
      -- nothing was granted of the new chunk
      intro g hg hlast
      have hlt := h.chunk_lt hg
      rw [Ledger.take, List.length_append, List.length_singleton] at hlast
      omega
    granted_add_free := hholds.used_add_free }

theorem Kept.grant (h : l.Kept limit) (hr : r.Regular) (hfits : l.arena.fits r) :
    (l.grant r).Kept limit := by
  obtain ⟨hchunk, hsize⟩ := Arena.fits_iff.1 hfits
  have hcurrent := h.current hchunk
  obtain ⟨hlength, -⟩ := List.getElem?_eq_some_iff.1 hcurrent
  have hholds := h.holds.carve hr.align_pos hsize
  rw [← granted_grant] at hholds
  have hstop : (l.carved r).stop ≤ l.arena.free := stop_carved_le hr hfits
  have hstart : (l.carved r).start ≤ l.arena.free :=
    Nat.le_trans (Nat.le_add_right _ r.size) hstop
  exact {
    limit_eq := h.limit_eq
    allocated_le := h.allocated_le
    allocated_eq := h.allocated_eq
    granted_le := Nat.le_trans (Nat.le_add_right _ _) hholds.used_add_free
    regular := forall_mem_grants_grant.2 ⟨h.regular, hr⟩
    aligned := forall_mem_grants_grant.2 ⟨h.aligned, dvd_start_carved l r⟩
    inside := forall_mem_grants_grant.2
      ⟨h.inside, l.arena.chunk, hcurrent, Nat.le_trans hstop h.free_le_chunk⟩
    apart := by
      rw [Ledger.grant, List.pairwise_append]
      refine ⟨h.apart, List.pairwise_singleton _ _, fun g hg g' hg' => ?_⟩
      obtain rfl := List.mem_singleton.1 hg'
      intro hsame
      have hlast : g.chunk = l.chunks.length - 1 := hsame
      exact .inr (Nat.le_trans hstop (h.free_le_start g hg (by omega)))
    current := h.current
    free_le_chunk := Nat.le_trans hstart h.free_le_chunk
    free_le_start := by
      refine forall_mem_grants_grant.2 ⟨fun g hg hlast => ?_, fun _ => Nat.le_refl _⟩
      exact Nat.le_trans hstart (h.free_le_start g hg hlast)
    granted_add_free := hholds.used_add_free }

/-- A request leaves the ledger in order, whether it is granted or refused. -/
theorem Kept.ask (h : l.Kept limit) (hr : r.Regular) : (l.ask r).Kept limit := by
  rcases ask_cases l hr with ⟨hfits, hask⟩ | ⟨n, hn, -, hfits, hask⟩ | ⟨-, hask⟩
  · exact hask ▸ h.grant hr hfits
  · exact hask ▸ (h.take hn).grant hr hfits
  · exact hask.symm ▸ h

theorem Kept.run {rs : List Request} (h : l.Kept limit) (hrs : ∀ r ∈ rs, r.Regular) :
    (l.run rs).Kept limit := by
  induction rs generalizing l with
  | nil => exact h
  | cons r rs ih =>
    obtain ⟨hr, hrs⟩ := List.forall_mem_cons.1 hrs
    exact ih (h.ask hr) hrs

/-! ## Addresses -/

variable {place : Nat → Nat}

/-- Grants start at addresses that are multiples of their alignments. -/
theorem Sound.dvd_address (h : l.Sound limit) (hp : l.Placed place) {g : Grant}
    (hg : g ∈ l.grants) : g.request.align ∣ g.address place := by
  have hplace := Nat.dvd_trans (h.regular g hg).align_dvd (hp.aligned g.chunk (h.chunk_lt hg))
  exact Nat.dvd_add hplace (h.aligned g hg)

/-- No two grants share an address. -/
theorem Sound.apartAt (h : l.Sound limit) (hp : l.Placed place) :
    l.grants.Pairwise (Grant.ApartAt place) := by
  refine h.apart.imp_of_mem fun {g g'} hg hg' happart => ?_
  simp only [Grant.ApartAt, Grant.address]
  by_cases hsame : g.chunk = g'.chunk
  · have hor := happart hsame
    simp only [Grant.stop] at hor
    rw [hsame]
    omega
  · obtain ⟨m, hm, hstop⟩ := h.inside g hg
    obtain ⟨n, hn, hstop'⟩ := h.inside g' hg'
    have hor := hp.apart _ _ m n hsame hm hn
    simp only [Grant.stop] at hstop hstop'
    omega

/-- After any requests, the ledger of an arena is in order: the chunks it took are those it counts
and within its limit, and what it granted is aligned, inside of the chunks and apart, also at the
addresses where the chunks lie. Whatever is asked next, the search for a chunk ends, a chunk that is
taken has room for the request, and a refusal carries the size of the request and the limit and
changes nothing. -/
theorem sound_run {limit : Nat} {rs : List Request} (hrs : ∀ r ∈ rs, r.Regular) :
    let l := (opened limit).run rs
    l.Sound limit ∧
    (∀ place, l.Placed place →
      (∀ g ∈ l.grants, g.request.align ∣ g.address place) ∧
      l.grants.Pairwise (Grant.ApartAt place)) ∧
    ∀ r, r.Regular →
      (∀ base, ∃ tries ≤ base.log2 + 1, ∀ n result,
        l.arena.Search r.size base n result ↔
          n = tries ∧ result = l.arena.findChunk r.size base) ∧
      ((l.arena.fits r ∧ l.ask r = l.grant r) ∨
        (∃ n ≤ l.arena.remaining, ¬ l.arena.fits r ∧ (l.take n).arena.fits r ∧
          l.ask r = (l.take n).grant r) ∨
        (l.arena.serve [r] = (some ⟨r.size, limit⟩, l.arena) ∧ l.ask r = l)) := by
  intro l
  have hsound : l.Sound limit := ((kept_opened limit).run hrs).toSound
  refine ⟨hsound, fun place hp => ?_, fun r hr => ?_⟩
  · exact ⟨fun g hg => hsound.dvd_address hp hg, hsound.apartAt hp⟩
  · refine ⟨Arena.search_iff hr.1, ?_⟩
    rw [← hsound.limit_eq]
    exact ask_cases l hr

/-- Requests for two chunks, with bytes left out between some of them, and two that are refused. Of
three of them the size is not a multiple of the alignment. -/
def mixed : List Request :=
  [⟨3, 1⟩, ⟨20, 8⟩, ⟨16, 16⟩, ⟨1000, 1⟩, ⟨429, 2⟩, ⟨20, 4⟩, ⟨3, 2⟩]

theorem sound_run_mixed :
    let l := (opened 1000).run mixed
    (∀ r ∈ mixed, r.Regular) ∧ l.Sound 1000 ∧ l.chunks = [448, 448] ∧
      l.grants.map (fun g => (g.chunk, g.start, g.stop)) =
        [(0, 445, 448), (0, 416, 436), (0, 400, 416), (1, 18, 447), (1, 14, 17)] ∧
      l.Placed (512 * ·) ∧
      (∀ g ∈ l.grants, g.request.align ∣ g.address (512 * ·)) ∧
      l.grants.Pairwise (Grant.ApartAt (512 * ·)) ∧
      l.ask ⟨40, 8⟩ = l ∧ ∃ tries ≤ 10, l.arena.Search 40 896 tries none := by
  intro l
  have hrs : ∀ r ∈ mixed, r.Regular := by decide
  obtain ⟨hsound, haddresses, hnext⟩ := @sound_run 1000 mixed hrs
  have hchunks : l.chunks = [448, 448] := by decide +kernel
  have hplaced : l.Placed (512 * ·) := by
    constructor
    · intro k _
      exact Nat.dvd_mul_right_of_dvd (by decide) k
    · intro j k m n hne hm hn
      rw [hchunks] at hm hn
      have hm := List.mem_of_getElem? hm
      have hn := List.mem_of_getElem? hn
      simp only [List.mem_cons, List.not_mem_nil, or_false, or_self] at hm hn
      omega
  obtain ⟨haligned, hapart⟩ := haddresses _ hplaced
  obtain ⟨tries, hle, hsearch⟩ := (hnext ⟨40, 8⟩ (by decide)).1 896
  refine ⟨hrs, hsound, hchunks, by decide +kernel, hplaced, haligned, hapart, by decide +kernel,
    tries, hle, ?_⟩
  exact (hsearch tries none).2 ⟨rfl, by decide +kernel⟩

end Ledger

end Kei
