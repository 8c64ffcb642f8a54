import Kei.Memory.Arena

/-!
# The ledger of an arena

An arena knows how much it has taken and how much of its current chunk is free, but neither which
chunks it took before nor where its requests were served. A ledger keeps both. Requests are made one
at a time, and those that come after a refusal are made of the arena that the refusal left behind.
The search for a new chunk is written here as a relation, which also counts the sizes that it tries.
-/

namespace Kei

/-- The request is for one byte or more, at an address that is a multiple of 1, 2, 4, 8 or 16. -/
def Request.Regular (r : Request) : Prop :=
  1 ≤ r.size ∧ r.align ∈ [1, 2, 4, 8, 16]

instance : DecidablePred Request.Regular :=
  fun _ => inferInstanceAs (Decidable (_ ∧ _))

/-- The bytes of a chunk that were granted for a request. -/
structure Grant where
  /-- Which of the chunks, counted from the first one taken. -/
  chunk : Nat
  /-- How many bytes of the chunk are before the first of them. -/
  start : Nat
  request : Request
deriving DecidableEq, Repr

namespace Grant

/-- How many bytes of the chunk are before the end of the last of them. -/
def stop (g : Grant) : Nat :=
  g.start + g.request.size

/-- No byte belongs to both. -/
def Apart (g g' : Grant) : Prop :=
  g.chunk = g'.chunk → g.stop ≤ g'.start ∨ g'.stop ≤ g.start

/-- The address of the first of the bytes, where chunk `k` lies at the address `place k`. -/
def address (place : Nat → Nat) (g : Grant) : Nat :=
  place g.chunk + g.start

/-- No address belongs to both. -/
def ApartAt (place : Nat → Nat) (g g' : Grant) : Prop :=
  g.address place + g.request.size ≤ g'.address place ∨
    g'.address place + g'.request.size ≤ g.address place

end Grant

structure Ledger where
  arena : Arena
  /-- The sizes of the chunks taken so far, oldest first. -/
  chunks : List Nat := []
  /-- What was granted so far, oldest first. -/
  grants : List Grant := []
deriving DecidableEq, Repr

namespace Ledger

/-- The ledger of an arena that nothing was asked of. -/
def opened (limit : Nat) : Ledger where
  arena := { limit }

/-- The bytes of all chunks taken so far. -/
def taken (l : Ledger) : Nat :=
  l.chunks.foldl (· + ·) 0

/-- The bytes of all that was granted so far. -/
def granted (l : Ledger) : Nat :=
  l.grants.foldl (fun n g => n + g.request.size) 0

/-- Record that a request was served and left `a` behind. A chunk was taken if the request did not
fit into the current one. Free bytes are before all that is granted of their chunk, so the grant
starts where they end. -/
def record (l : Ledger) (r : Request) (a : Arena) : Ledger :=
  let chunks := if l.arena.fits r then l.chunks else l.chunks ++ [a.chunk]
  { arena := a, chunks, grants := l.grants ++ [⟨chunks.length - 1, a.free, r⟩] }

/-- Make a request of the arena. -/
def ask (l : Ledger) (r : Request) : Ledger :=
  match l.arena.serve [r] with
  | (none, a) => l.record r a
  | (some _, a) => { l with arena := a }

/-- Make requests of the arena, one after the other and whether or not some are refused. -/
def run (l : Ledger) (rs : List Request) : Ledger :=
  rs.foldl ask l

/-- Chunk `k` lies at the address `place k`: a multiple of 16, and no chunk over another one. -/
structure Placed (l : Ledger) (place : Nat → Nat) : Prop where
  aligned : ∀ k < l.chunks.length, 16 ∣ place k
  apart : ∀ j k m n, j ≠ k → l.chunks[j]? = some m → l.chunks[k]? = some n →
    place j + m ≤ place k ∨ place k + n ≤ place j

end Ledger

/-- The search for a chunk, as a relation between the size it starts with, the number of sizes that
it tries and what it finds. The size is halved as long as it may be tried and there is no room. -/
inductive Arena.Search (a : Arena) (size : Nat) : Nat → Nat → Option Nat → Prop
  | refused {base : Nat} : ¬ a.mayTry size base → Search a size base 0 none
  | found {base : Nat} : a.mayTry size base → chunkSize base size ≤ a.remaining →
    Search a size base 1 (some (chunkSize base size))
  | halved {base tries : Nat} {result : Option Nat} : a.mayTry size base →
    a.remaining < chunkSize base size → Search a size (base / 2) tries result →
    Search a size base (tries + 1) result

end Kei
