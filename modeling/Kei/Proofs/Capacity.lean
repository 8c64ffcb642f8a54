import Kei.Proofs.Memory.Room
import Kei.Proofs.Reader.Cost

/-!
# Limits of memory

The requests of a compilation do not depend on the limit of its arena. So the limit decides whether
all of them are served and nothing else, and a greater limit serves them if a smaller one does. A
limit of 64 bytes for each token is always enough, as long as it is not below the least chunk.
-/

namespace Kei

theorem Reader.Outcome.small_of_mem_requests {o : Outcome} : ∀ r ∈ o.requests, r.Small := by
  intro r hr
  obtain ⟨node, -, rfl⟩ := List.mem_map.1 hr
  exact node.small_request

/-- The compilation ends for want of memory. -/
def Exhausted (limit : Nat) (source : String) : Prop :=
  ∃ refusal, compile limit source = .error (.memory refusal)

/-- A compilation that does not end for want of memory has all its requests served. -/
theorem serve_of_not_exhausted {limit : Nat} {source : String} {tokens : List Token}
    (htokens : tokenize source = .ok tokens) (h : ¬ Exhausted limit source) :
    (({ limit } : Arena).serve (Reader.read tokens).requests).1 = none := by
  cases hserve : (({ limit } : Arena).serve (Reader.read tokens).requests).1 with
  | none => rfl
  | some refusal =>
    refine absurd ⟨refusal, ?_⟩ h
    rw [compile, htokens, ok_bind, parse_fst, hserve]
    rfl

/-- A compilation comes to the same with every greater limit. -/
theorem compile_eq_of_le {limit limit' : Nat} {source : String} (hle : limit ≤ limit')
    (h : ¬ Exhausted limit source) : compile limit' source = compile limit source := by
  rw [compile, compile]
  cases htokens : tokenize source with
  | error e => rfl
  | ok tokens =>
    have hserve := serve_of_not_exhausted htokens h
    have hserve' := (Arena.covers_initial hle).serve
      (fun r hr => (Reader.Outcome.small_of_mem_requests r hr).toWords) hserve
    rw [ok_bind, ok_bind, parse_fst, parse_fst, hserve, hserve']

/-- Where a compilation does not end for want of memory, it comes to the same with every greater
limit, and with every other limit that is enough. -/
theorem compile_limit {limit limit' : Nat} {source : String} (h : ¬ Exhausted limit source) :
    (limit ≤ limit' → compile limit' source = compile limit source) ∧
      (¬ Exhausted limit' source → compile limit' source = compile limit source) := by
  refine ⟨fun hle => compile_eq_of_le hle h, fun h' => ?_⟩
  rcases Nat.le_total limit limit' with hle | hle
  · exact compile_eq_of_le hle h
  · exact (compile_eq_of_le hle h').symm

/-- With 896 bytes the arena takes two small chunks, with 2000 bytes a small and a great one. -/
def chunksText : String :=
  "let x = 7 - 2 * (3) - 1; if (x) \x7b exit(x); \x7d elif (0) \x7b \x7d else \x7b x = 8 / 4; \x7d"

theorem compile_limit_chunks :
    ¬ Exhausted 896 chunksText ∧ compile 2000 chunksText = compile 896 chunksText := by
  have hok : (compile 896 chunksText).isOk := by decide +kernel
  have h : ¬ Exhausted 896 chunksText := by
    rintro ⟨refusal, hrefusal⟩
    rw [hrefusal] at hok
    cases hok
  exact ⟨h, (compile_limit h).1 (by decide)⟩

/-- Reading never ends for want of memory in a fresh arena with 64 bytes for each token. -/
theorem parse_ne_memory {limit : Nat} {tokens : List Token} (hleast : 448 ≤ limit)
    (hlimit : 64 * tokens.length ≤ limit) (refusal : Refusal) :
    (parse { limit } tokens).1 ≠ .error (.memory refusal) := by
  have hserve : (({ limit } : Arena).serve (Reader.read tokens).requests).1 = none := by
    refine (Arena.packed_initial limit).serve hleast Reader.Outcome.small_of_mem_requests ?_
    have htotal := Reader.total_read_le tokens
    show 112 * (0 + Request.total (Reader.read tokens).requests) ≤ 53 * limit
    omega
  rw [parse_fst, hserve]
  cases (Reader.read tokens).result <;> simp

/-- Sixteen empty scopes, which ask for 28 bytes for each of their tokens. -/
def emptyScopes : List Token :=
  (List.replicate 16 [Kind.leftBrace, Kind.rightBrace]).flatten.map fun kind => { kind, line := 1 }

theorem parse_ne_memory_emptyScopes :
    448 ≤ 2048 ∧ 64 * emptyScopes.length ≤ 2048 ∧
      ∀ refusal, (parse { limit := 2048 } emptyScopes).1 ≠ .error (.memory refusal) :=
  ⟨by decide, by decide, parse_ne_memory (by decide) (by decide)⟩

end Kei
