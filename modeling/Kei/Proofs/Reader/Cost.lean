import Kei.Compile
import Kei.Proofs.Basic
import Kei.Proofs.Memory.Serving
import Kei.Proofs.Reader.Transition

/-!
# What reading asks of an arena

Reading fails for want of memory exactly when the arena refuses one of its requests: those for the
nodes it built, up to a fault of the syntax if there is one, and those for the links of the program
otherwise (`parse_fst`).

Each token read accounts for at most 28 bytes of requests. A token may complete much that was begun
before it, so the tokens before it pay in advance: `State.cost` is what was asked for together with
what is paid for already. It bounds the bytes asked for, settling a state keeps it, and a transition
adds at most 28 to it. Two braces without anything between them cost 56 bytes, so no smaller number
would do.
-/

namespace Kei

/-! ## Bytes of nodes -/

namespace Node

/-- The bytes that nodes take. -/
def bytes (nodes : List Node) : Nat :=
  Request.total (nodes.map request)

@[simp] theorem bytes_nil : bytes [] = 0 := rfl

@[simp] theorem bytes_cons (n : Node) (nodes : List Node) :
    bytes (n :: nodes) = n.size + bytes nodes := rfl

@[simp] theorem bytes_append (nodes rest : List Node) :
    bytes (nodes ++ rest) = bytes nodes + bytes rest := by
  induction nodes with
  | nil => simp
  | cons n nodes ih => simp [ih, Nat.add_assoc]

@[simp] theorem bytes_replicate (k : Nat) (n : Node) :
    bytes (List.replicate k n) = n.size * k := by
  induction k with
  | zero => rfl
  | succ k ih => rw [List.replicate_succ, bytes_cons, ih, Nat.mul_succ, Nat.add_comm]

@[simp] theorem bytes_reverse (nodes : List Node) : bytes nodes.reverse = bytes nodes := by
  induction nodes with
  | nil => rfl
  | cons n nodes ih => simp [ih, Nat.add_comm]

end Node

namespace Reader

/-! ## Requests -/

/-- The links that a whole program takes. -/
def Outcome.links (o : Outcome) : List Node :=
  match o.result with
  | .ok program => List.replicate program.length .link
  | .error _ => []

/-- Everything that reading asks for, in order. -/
def Outcome.requests (o : Outcome) : List Request :=
  (o.nodes.reverse ++ o.links).map Node.request

end Reader

/-- What reading into an arena comes to. -/
theorem parse_fst (arena : Arena) (tokens : List Token) :
    (parse arena tokens).1 =
      match (arena.serve (Reader.read tokens).requests).1 with
      | some refusal => .error (.memory refusal)
      | none => (Reader.read tokens).result.mapError .grammar := by
  rw [Reader.Outcome.requests, List.map_append, Arena.serve_append, parse, readTree]
  rcases arena.serve ((Reader.read tokens).nodes.reverse.map Node.request) with ⟨_ | refusal, a⟩
  · cases hresult : (Reader.read tokens).result with
    | error e => simp [Reader.Outcome.links, hresult, Arena.serve]
    | ok program =>
      simp only [mapError_ok, linkTree, Reader.Outcome.links, hresult, List.map_replicate]
      rcases a.serve (List.replicate program.length Node.link.request) with ⟨_ | _, _⟩ <;> rfl
  · rfl

/-- The arena that reading leaves behind. -/
theorem parse_snd (arena : Arena) (tokens : List Token) :
    (parse arena tokens).2 = (arena.serve (Reader.read tokens).requests).2 := by
  rw [Reader.Outcome.requests, List.map_append, Arena.serve_append, parse, readTree]
  rcases arena.serve ((Reader.read tokens).nodes.reverse.map Node.request) with ⟨_ | refusal, a⟩
  · cases hresult : (Reader.read tokens).result with
    | error e => simp [Reader.Outcome.links, hresult, Arena.serve]
    | ok program =>
      simp only [mapError_ok, linkTree, Reader.Outcome.links, hresult, List.map_replicate]
      rcases a.serve (List.replicate program.length Node.link.request) with ⟨_ | _, _⟩ <;> rfl
  · rfl

namespace Reader

/-! ## The cost of a state -/

/-- A statement and its link are paid for when its expression begins, and so are the links of a
chain up to here. -/
def Use.credit : Use → Nat
  | .exit | .declare _ | .assign _ => 48
  | .test earlier => 48 + 24 * earlier.length

/-- The brace that opens a scope pays half of it. -/
def Role.credit : Role → Nat
  | .scope => 28
  | .branch earlier _ => 48 + 24 * earlier.length
  | .otherwise _ older => 72 + 24 * older.length

/-- Each waiting operator is paid for. -/
def groupCredit : List Waiting → Nat
  | [] => 0
  | waiting :: groups => 24 * waiting.length + groupCredit groups

def Place.credit : Place → Nat
  | .statement => 0
  | .exitParen | .letName | .assignEquals _ => 24
  | .letEquals _ | .exitEnd _ => 48
  | .term use groups waiting | .operator use groups waiting _ =>
    use.credit + groupCredit (waiting :: groups)
  | .testParen earlier => 24 + 24 * earlier.length
  | .body role => role.credit
  | .chain _ older => 48 + 24 * older.length

/-- What the open blocks have paid for, the links of the statements before them among it. -/
def levelCredit : List Level → Nat
  | [] => 0
  | l :: levels => l.role.credit + 16 * l.before.length + levelCredit levels

/-- The bytes asked for, and those paid for in advance. -/
def State.cost (s : State) : Nat :=
  Node.bytes s.nodes + 16 * s.done.length + levelCredit s.levels + s.place.credit

theorem combine_cost (level : Nat) (nodes : List Node) (waiting : Waiting) (e : Expr) :
    Node.bytes (combine level nodes waiting e).2.2 + 24 * (combine level nodes waiting e).1.length =
      Node.bytes nodes + 24 * waiting.length := by
  fun_induction combine level nodes waiting e with
  | case1 nodes e lhs op waiting h ih =>
    rw [ih]
    simp only [Node.bytes_cons, Node.size, List.length_cons]
    omega
  | case2 => rfl
  | case3 => rfl

theorem State.settle_cost (s : State) (next : Option Kind) : (s.settle next).cost = s.cost := by
  unfold settle
  split
  case h_1 use groups waiting e hp =>
    have h := combine_cost ((next.bind Kind.level?).getD 0) s.nodes waiting e
    generalize combine ((next.bind Kind.level?).getD 0) s.nodes waiting e = combined at h ⊢
    obtain ⟨rest, operand, nodes⟩ := combined
    simp only [cost, hp, Place.credit, groupCredit] at h ⊢
    omega
  case h_2 newest older hp =>
    split
    · rfl
    · simp only [cost, hp, Place.credit, Node.bytes_cons, Node.bytes_append, Node.bytes_replicate,
        Node.size, List.length_cons]
      omega
  case h_3 => rfl

variable {limit : Nat} {s s' : State} {t : Token} {ahead : List Token}

/-- A transition costs at most 28 bytes. -/
theorem Step.cost_le (h : Step limit s t ahead s') : s'.cost ≤ s.cost + 28 := by
  cases h with
  -- the links of the statements in the block were paid for with the statements
  | closeScope hp ht hl | closeBranch hp ht hl | closeOtherwise hp ht hl =>
    simp only [State.cost, hp, hl, Place.credit, levelCredit, Role.credit, Node.bytes_cons,
      Node.bytes_append, Node.bytes_replicate, Node.size, List.length_cons]
    omega
  | openScope hp | openBody hp =>
    simp only [State.cost, hp, Place.credit, levelCredit, Role.credit, List.length_nil]
    omega
  | integer hp | name hp | closeParen hp =>
    simp only [State.cost, State.operand, hp, Place.credit, groupCredit, Node.bytes_cons, Node.size]
    omega
  | endDeclare hp | endAssign hp | exitEnd hp =>
    simp only [State.cost, State.finish, hp, Place.credit, Use.credit, Node.bytes_cons, Node.size,
      List.length_cons]
    omega
  | _ hp =>
    simp only [State.cost, hp, Place.credit, Use.credit, Role.credit, groupCredit,
      List.length_cons, List.length_nil]
    omega

theorem bytes_le_cost (s : State) : Node.bytes s.nodes + 16 * s.done.length ≤ s.cost := by
  simp only [State.cost]
  omega

theorem total_requests (o : Outcome) :
    Request.total o.requests = Node.bytes o.nodes + Node.bytes o.links := by
  rw [← Node.bytes_reverse o.nodes, ← Node.bytes_append]
  rfl

/-- Reading from a state on asks for at most 28 bytes more for each token. -/
theorem total_readFrom_le (limit : Nat) (s : State) (line : Nat) (tokens : List Token) :
    Request.total (readFrom limit s line tokens).requests ≤ s.cost + 28 * tokens.length := by
  rw [total_requests]
  induction tokens generalizing s line with
  | nil =>
    have hcost := s.settle_cost none
    have hle := bytes_le_cost (s.settle none)
    simp only [readFrom]
    split <;> simp only [Outcome.links, Node.bytes_replicate, Node.bytes_nil, Node.size,
      List.length_reverse] <;> omega
  | cons t rest ih =>
    have hcost := s.settle_cost (some t.kind)
    have hle := bytes_le_cost (s.settle (some t.kind))
    simp only [readFrom]
    rcases hmove : (s.settle (some t.kind)).move limit t rest with s' | _ | _
    · have hstep := (State.step_of_move hmove).cost_le
      have hrest := ih s' t.line
      simp only [List.length_cons]
      omega
    all_goals
      simp only [Outcome.links, Node.bytes_nil]
      omega

theorem total_read_le (tokens : List Token) :
    Request.total (read tokens).requests ≤ 28 * tokens.length := by
  have h := total_readFrom_le maxNesting {} (firstLine tokens) tokens
  have hcost : State.cost {} = 0 := rfl
  rwa [hcost, Nat.zero_add] at h

end Reader

end Kei
