/-!
# The arena

An arena serves requests for memory out of chunks, and the chunks it takes never exceed its limit
together. A request is carved from the end of what is free in the current chunk, where whole
multiples of its alignment are taken. When it does not fit there, a new chunk is taken: at least as
large as the request, twice as large as the chunk before if the limit allows it, and otherwise as
large as halving can make it. The unused end of an older chunk is not used again.
-/

namespace Kei

/-- A request for memory: how many bytes, and which numbers its address must be a multiple of. -/
structure Request where
  size : Nat
  align : Nat
deriving DecidableEq, Repr

/-- A request that an arena could not serve within its limit. -/
structure Refusal where
  requested : Nat
  limit : Nat
deriving DecidableEq, Repr

structure Arena where
  /-- The most bytes that all chunks may have together. -/
  limit : Nat
  /-- The bytes of all chunks taken so far. -/
  allocated : Nat := 0
  /-- The size of the current chunk, zero before the first one is taken. -/
  chunk : Nat := 0
  /-- The bytes of the current chunk that are still free. -/
  free : Nat := 0
deriving DecidableEq, Repr

namespace Arena

/-- The limit of an arena when none is asked for. -/
def defaultLimit : Nat :=
  4 * 1024 * 1024

/-- The bytes that chunks may still take. -/
def remaining (a : Arena) : Nat :=
  a.limit - a.allocated

/-- The smallest chunk, unless the limit itself is smaller. -/
def leastChunk : Nat :=
  448

/-- What every chunk takes beside its usable bytes. -/
def overhead : Nat :=
  64

def roundDown (n align : Nat) : Nat :=
  n / align * align

def roundUp (n align : Nat) : Nat :=
  (n + align - 1) / align * align

/-- The least power of two that is not below `n`. -/
def powerAbove (n : Nat) : Nat :=
  if n ≤ 1 then 1 else 1 <<< ((n - 1).log2 + 1)

/-- The request fits into the current chunk. -/
def fits (a : Arena) (r : Request) : Bool :=
  0 < a.chunk && roundUp r.size r.align ≤ roundDown a.free r.align

/-- Serve a request from the current chunk. -/
def carve (a : Arena) (r : Request) : Arena :=
  { a with free := roundDown a.free r.align - roundUp r.size r.align }

/-- The size of a chunk that has `base` bytes and room for a request of `size` bytes: with the
overhead it is a power of two, or whole pages from one page on. -/
def chunkSize (base size : Nat) : Nat :=
  let n := max base (roundUp size 16)
  if n < 4096 then powerAbove (n + overhead) - overhead
  else roundUp (n + overhead) 4096 - overhead

/-- A chunk below the least size is tried only as the first one of an arena whose limit is below
that size. -/
def mayTry (a : Arena) (size base : Nat) : Bool :=
  max size leastChunk ≤ base ||
    (size < a.limit && size ≤ base && a.limit < leastChunk && a.allocated == 0)

/-- Look for the size of a new chunk that stays within the limit, halving `base` until one does. -/
def findChunk (a : Arena) (size base : Nat) : Option Nat :=
  if base = 0 then none
  else if a.mayTry size base then
    let n := chunkSize base size
    if n ≤ a.remaining then some n else findChunk a size (base / 2)
  else none
termination_by base
decreasing_by omega

/-- Take a new chunk of `n` bytes. -/
def grow (a : Arena) (n : Nat) : Arena :=
  { a with chunk := n, free := n, allocated := a.allocated + n }

/-- Serve a request. -/
def alloc (a : Arena) (r : Request) : Except Refusal Arena :=
  if a.fits r then .ok (a.carve r)
  else
    match a.findChunk r.size (max (2 * a.chunk) (max r.size leastChunk)) with
    | some n => .ok ((a.grow n).carve r)
    | none => .error ⟨r.size, a.limit⟩

/-- Serve requests in turn: the arena after them, or the first refusal with the arena that it left
unchanged. -/
def serve (a : Arena) : List Request → Option Refusal × Arena
  | [] => (none, a)
  | r :: rest =>
    match a.alloc r with
    | .ok a => serve a rest
    | .error e => (some e, a)

end Arena

end Kei
