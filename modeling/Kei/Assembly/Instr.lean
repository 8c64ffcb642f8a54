/-!
# Assembly

The instructions that programs are compiled to, as data, and their text. All values are 8 bytes wide
and live on the stack; `rsp` points at the newest. An instruction takes one line of text, indented,
and a label or a directive takes one at the margin.
-/

namespace Kei

inductive Reg
  | rax
  | rbx
  | rdi
deriving DecidableEq, Repr

def Reg.name : Reg → String
  | rax => "rax"
  | rbx => "rbx"
  | rdi => "rdi"

inductive Instr
  /-- The directive that makes the entry point visible. -/
  | global
  /-- The entry point. -/
  | start
  /-- The place that jumps to `n` go to. -/
  | label (n : Nat)
  /-- A remark, which does nothing. -/
  | note (text : String)
  /-- Put the number that `value` spells into a register. -/
  | load (dst : Reg) (value : String)
  /-- Put `rax` into the stack slot `offset` bytes from the newest. -/
  | store (offset : Nat)
  | push (src : Reg)
  /-- Push a copy of the stack slot `offset` bytes from the newest. -/
  | pushSlot (offset : Nat)
  | pop (dst : Reg)
  /-- Drop the newest `bytes` of the stack. -/
  | release (bytes : Nat)
  /-- Add `rbx` to `rax`. -/
  | add
  /-- Subtract `rbx` from `rax`. -/
  | sub
  /-- Multiply `rax` by `rbx`. -/
  | mul
  /-- Extend the sign of `rax`, for the division after it. -/
  | signExtend
  /-- Divide `rax` by `rbx`. -/
  | div
  /-- Compare `rax` with zero. -/
  | test
  /-- Jump if the last comparison found zero. -/
  | jumpZero (n : Nat)
  | jump (n : Nat)
  | syscall
deriving DecidableEq, Repr

namespace Instr

def labelName (n : Nat) : String :=
  "label" ++ toString n

/-- The text of an instruction without its indentation. -/
def text : Instr → String
  | global => "global _start"
  | start => "_start:"
  | label n => labelName n ++ ":"
  | note t => ";; " ++ t
  | load dst v => "mov " ++ dst.name ++ ", " ++ v
  | store n => "mov [rsp + " ++ toString n ++ "], rax"
  | push src => "push " ++ src.name
  | pushSlot n => "push QWORD [rsp + " ++ toString n ++ "]"
  | pop dst => "pop " ++ dst.name
  | release n => "add rsp, " ++ toString n
  | add => "add rax, rbx"
  | sub => "sub rax, rbx"
  | mul => "imul rax, rbx"
  | signExtend => "cqo"
  | div => "idiv rbx"
  | test => "test rax, rax"
  | jumpZero n => "jz " ++ labelName n
  | jump n => "jmp " ++ labelName n
  | syscall => "syscall"

/-- Directives and labels stand at the margin. -/
def indent : Instr → String
  | global | start | label _ => ""
  | _ => "    "

/-- The line of an instruction. -/
def line (i : Instr) : String :=
  i.indent ++ i.text ++ "\n"

/-- The text of a list of instructions, one a line. -/
def print (code : Array Instr) : String :=
  code.foldl (fun out i => out ++ i.line) ""

end Instr

end Kei
