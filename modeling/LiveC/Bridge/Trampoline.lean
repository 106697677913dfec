import LiveC.Bridge.Convention
/-!
# Trampolines

A trampoline is a few instructions that stand in front of a foreign function: they set up a stack
frame, load the address of the function and that of the shared routine that moves the arguments,
and jump to the routine. `Trampoline.bytes` is the machine code, `Trampoline.instructions` what it
says, and `decode?` reads instructions from bytes.
-/

namespace LiveC

/-- The registers that take part in a call. -/
inductive Register
  | rax
  | rcx
  | rdx
  | rsi
  | rdi
  | rbp
  | rsp
  | r8
  | r9
  | r10
  deriving DecidableEq, Repr

/-- The instructions of trampolines and of the shared routine. -/
inductive Instruction
  /-- Put a register on the stack. -/
  | push (source : Register)
  /-- Put the word at an offset from the frame pointer on the stack. -/
  | pushFrame (offset : UInt64)
  /-- Copy a register. -/
  | move (target source : Register)
  /-- Load a constant. -/
  | load (target : Register) (value : UInt64)
  /-- Make room on the stack. -/
  | reserve (size : UInt64)
  /-- Call the function whose address is in a register. -/
  | call (target : Register)
  /-- Continue at the address in a register. -/
  | jump (target : Register)
  /-- Drop the stack frame and restore the caller's frame pointer. -/
  | leave
  /-- Return to the caller. -/
  | ret
  deriving DecidableEq, Repr

/-- The eight bytes of a word, the lowest first. -/
def littleEndian (w : UInt64) : List UInt8 :=
  ([0, 8, 16, 24, 32, 40, 48, 56] : List UInt64).map fun shift => (w >>> shift).toUInt8

/-- The word that some bytes make, the lowest first. -/
def ofLittleEndian (bytes : List UInt8) : UInt64 :=
  bytes.foldr (fun b w => w <<< 8 ||| b.toUInt64) 0

/-- A foreign function behind the shared routine. -/
structure Trampoline where
  function : Address
  routine : Address
  deriving DecidableEq, Repr

namespace Trampoline

/-- What the code of a trampoline says. -/
def instructions (t : Trampoline) : List Instruction :=
  [.push .rbp, .move .rbp .rsp, .load .rax t.function, .load .r10 t.routine, .jump .r10]

/-- The bytes before the address of the function: push rbp, mov rbp rsp, and the start of a load. -/
def head : List UInt8 := [0x55, 0x48, 0x89, 0xE5, 0x48, 0xB8]

/-- The bytes between the two addresses: the start of a load. -/
def middle : List UInt8 := [0x49, 0xBA]

/-- The bytes after the address of the routine: the jump. -/
def last : List UInt8 := [0x41, 0xFF, 0xE2]

/-- The machine code of a trampoline. -/
def bytes (t : Trampoline) : List UInt8 :=
  head ++ littleEndian t.function ++ middle ++ littleEndian t.routine ++ last

/-- The routine shared by all trampolines. It is entered with the frame set up and the function in
`rax`: the eight stack words and the last two register arguments are pushed again, the first four
arguments move to the registers in which the function expects them, and the function is called with
room for them on the stack. -/
def routineCode : List Instruction :=
  [.pushFrame 72, .pushFrame 64, .pushFrame 56, .pushFrame 48, .pushFrame 40, .pushFrame 32,
    .pushFrame 24, .pushFrame 16, .push .r9, .push .r8, .move .r8 .rdx, .move .r9 .rcx,
    .move .rcx .rdi, .move .rdx .rsi, .reserve 32, .call .rax, .leave, .ret]

end Trampoline

/-- The first instruction in some bytes, and the bytes after it. -/
def decodeOne? : List UInt8 → Option (Instruction × List UInt8)
  | 0x55 :: r => some (.push .rbp, r)
  | 0x48 :: 0x89 :: 0xE5 :: r => some (.move .rbp .rsp, r)
  | 0x48 :: 0xB8 :: b₀ :: b₁ :: b₂ :: b₃ :: b₄ :: b₅ :: b₆ :: b₇ :: r =>
    some (.load .rax (ofLittleEndian [b₀, b₁, b₂, b₃, b₄, b₅, b₆, b₇]), r)
  | 0x49 :: 0xBA :: b₀ :: b₁ :: b₂ :: b₃ :: b₄ :: b₅ :: b₆ :: b₇ :: r =>
    some (.load .r10 (ofLittleEndian [b₀, b₁, b₂, b₃, b₄, b₅, b₆, b₇]), r)
  | 0x41 :: 0xFF :: 0xE2 :: r => some (.jump .r10, r)
  | _ => none

/-- The instructions that some bytes spell, at most `count` of them. -/
def decodeUpTo? : Nat → List UInt8 → Option (List Instruction)
  | _, [] => some []
  | 0, _ => none
  | count + 1, bytes => do
    let (i, rest) ← decodeOne? bytes
    return i :: (← decodeUpTo? count rest)

/-- The instructions that some bytes spell. -/
def decode? (bytes : List UInt8) : Option (List Instruction) := decodeUpTo? bytes.length bytes

end LiveC
