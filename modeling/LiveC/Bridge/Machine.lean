import LiveC.Bridge.Trampoline
/-!
# Running a trampoline

The registers and the stack of a processor, and what each instruction does to them. A called
function is a parameter: it takes its address and the state at the call to the state at its return.
`Trampoline.run` runs a trampoline and the shared routine behind it; `bridgedCall` passes arguments
as a caller of the one convention does and hands the function those that it finds by the other.
-/

namespace LiveC

/-- The state of a processor: its registers, and the words in memory. -/
structure Machine where
  register : Register → UInt64
  word : Address → UInt64

namespace Machine

/-- The state with another value in a register. -/
def set (m : Machine) (r : Register) (v : UInt64) : Machine :=
  { m with register := fun x => if x = r then v else m.register x }

/-- The state with another word in memory. -/
def store (m : Machine) (a : Address) (v : UInt64) : Machine :=
  { m with word := fun x => if x = a then v else m.word x }

/-- The state with a word on the stack. -/
def push (m : Machine) (v : UInt64) : Machine :=
  let top := m.register .rsp - 8
  (m.set .rsp top).store top v

/-- The state without the top word of the stack, which goes to a register. -/
def popTo (m : Machine) (r : Register) : Machine :=
  let top := m.register .rsp
  (m.set .rsp (top + 8)).set r (m.word top)

/-- What an instruction does; `callee` is what the function at an address does until it returns. -/
def step (callee : Address → Machine → Machine) (m : Machine) : Instruction → Machine
  | .push r => m.push (m.register r)
  | .pushFrame offset => m.push (m.word (m.register .rbp + offset))
  | .move target source => m.set target (m.register source)
  | .load target value => m.set target value
  | .reserve size => m.set .rsp (m.register .rsp - size)
  | .call target => callee (m.register target) m
  | .jump _ => m
  | .leave => (m.set .rsp (m.register .rbp)).popTo .rbp
  | .ret => m.set .rsp (m.register .rsp + 8)

/-- The state after some instructions. -/
def run (callee : Address → Machine → Machine) (m : Machine) (code : List Instruction) : Machine :=
  code.foldl (step callee) m

end Machine

/-- The state after a trampoline and the shared routine behind it. -/
def Trampoline.run (callee : Address → Machine → Machine) (t : Trampoline) (m : Machine) :
    Machine :=
  (m.run callee t.instructions).run callee routineCode

/-- The registers that carry the first arguments in the convention of Unix systems. -/
def sysvRegisters : List Register := [.rdi, .rsi, .rdx, .rcx, .r8, .r9]

/-- The registers that carry the first arguments in the convention of Windows. -/
def winRegisters : List Register := [.rcx, .rdx, .r8, .r9]

/-- How many arguments a trampoline passes on. -/
def bridgedArguments : Nat := 14

/-- The stack pointer that a called function finds; the return address lies there. -/
def entryStack : Address := 0x7fff0008

/-- The state at the entry of a function called with some arguments by the convention of Unix
systems: six in registers and the rest on the stack above the return address. -/
def sysvEntry (arguments : List UInt64) : Machine where
  register r :=
    if r = .rsp then entryStack
    else match sysvRegisters.idxOf? r with
      | some i => arguments.getD i 0
      | none => 0
  word a :=
    if entryStack < a then arguments.getD (6 + ((a - entryStack) / 8 - 1).toNat) 0 else 0

/-- The arguments that a function called by the convention of Windows finds: four in registers and
the rest on the stack above the room for them. -/
def winArguments (m : Machine) : List UInt64 :=
  winRegisters.map m.register ++
    (List.range (bridgedArguments - 4)).map fun i =>
      m.word (m.register .rsp + 32 + 8 * UInt64.ofNat i)

/-- The result of a function of the one convention called through a trampoline with arguments
passed by the other. -/
def bridgedCall (function : List UInt64 → UInt64) (t : Trampoline) (arguments : List UInt64) :
    UInt64 :=
  (t.run (fun _ m => m.set .rax (function (winArguments m))) (sysvEntry arguments)).register .rax

end LiveC
