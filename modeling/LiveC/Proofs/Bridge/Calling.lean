import Mathlib.Data.Nat.Digits.Defs
import LiveC.Bridge.Machine
/-!
# Calls through a trampoline

The machine code of a trampoline decodes to its instructions (`Trampoline.decode?_bytes`), and a run
of them with the shared routine behind them hands the function at the other end the arguments of the
caller (`Trampoline.run_passes_arguments`).

A run is followed through the stack: `Machine.Framed` says which words lie on it and at which of
them the frame pointer stands. Every instruction of the routine pushes a word, moves a register or
makes room, and there is one lemma for each. Words are only looked at in steps of eight bytes from
the stack pointer, so no two of them overlap.
-/

namespace LiveC

/-! ## The machine code -/

/-- A byte in front of at most seven bytes. -/
theorem toNat_shiftLeft_or {w : UInt64} {b : UInt8} (hw : w.toNat < 2 ^ 56) :
    (w <<< 8 ||| b.toUInt64).toNat = b.toNat + 256 * w.toNat := by
  have hb : b.toNat < 2 ^ 8 := b.toNat_lt
  have hshift : (w <<< 8).toNat = w.toNat <<< 8 := by
    rw [UInt64.toNat_shiftLeft]
    exact Nat.mod_eq_of_lt (by rw [Nat.shiftLeft_eq]; exact (by omega : w.toNat * 2 ^ 8 < 2 ^ 64))
  rw [UInt64.toNat_or, UInt8.toNat_toUInt64, hshift, ← Nat.shiftLeft_add_eq_or_of_lt hb,
    Nat.shiftLeft_eq]
  omega

/-- Up to eight bytes make the number with those digits. -/
theorem toNat_ofLittleEndian {bytes : List UInt8} (h : bytes.length ≤ 8) :
    (ofLittleEndian bytes).toNat = Nat.ofDigits 256 (bytes.map UInt8.toNat) := by
  induction bytes with
  | nil => rfl
  | cons b bytes ih =>
    have hbytes : bytes.length ≤ 7 := Nat.le_of_succ_le_succ h
    have ih := ih (hbytes.trans (by decide))
    have hdigits : ∀ d ∈ bytes.map UInt8.toNat, d < 256 := by
      intro d hd
      obtain ⟨b, -, rfl⟩ := List.mem_map.1 hd
      exact b.toNat_lt
    have hlt : (ofLittleEndian bytes).toNat < 2 ^ 56 := by
      rw [ih]
      calc Nat.ofDigits 256 (bytes.map UInt8.toNat) < 256 ^ (bytes.map UInt8.toNat).length :=
            Nat.ofDigits_lt_base_pow_length (by decide) hdigits
        _ ≤ 256 ^ 7 := Nat.pow_le_pow_right (by decide) (by simpa using hbytes)
        _ = 2 ^ 56 := by decide
    have hcons : ofLittleEndian (b :: bytes) = ofLittleEndian bytes <<< 8 ||| b.toUInt64 := rfl
    rw [hcons, toNat_shiftLeft_or hlt, ih, List.map_cons, Nat.ofDigits_cons]

/-- The lowest digits of a number make its remainder. -/
theorem ofDigits_range (count n : Nat) :
    Nat.ofDigits 256 ((List.range count).map fun k => n / 256 ^ k % 256) = n % 256 ^ count := by
  induction count generalizing n with
  | zero => simp [Nat.mod_one]
  | succ count ih =>
    have hdigit : (fun k => n / 256 ^ k % 256) ∘ Nat.succ = fun k => n / 256 / 256 ^ k % 256 := by
      funext k
      rw [Function.comp_apply, Nat.div_div_eq_div_mul, ← Nat.pow_succ']
    rw [List.range_succ_eq_map, List.map_cons, List.map_map, hdigit, Nat.ofDigits_cons, ih,
      Nat.pow_succ', Nat.mod_mul, Nat.pow_zero, Nat.div_one]

theorem map_toNat_littleEndian (w : UInt64) :
    (littleEndian w).map UInt8.toNat = (List.range 8).map fun k => w.toNat / 256 ^ k % 256 := by
  simp only [littleEndian, List.map_cons, List.map_nil, UInt64.toNat_toUInt8,
    UInt64.toNat_shiftRight, UInt64.reduceToNat, Nat.reduceMod, Nat.shiftRight_eq_div_pow,
    Nat.reducePow]
  rfl

/-- The bytes of a word are its digits. -/
theorem ofDigits_littleEndian (w : UInt64) :
    Nat.ofDigits 256 ((littleEndian w).map UInt8.toNat) = w.toNat := by
  rw [map_toNat_littleEndian, ofDigits_range]
  exact Nat.mod_eq_of_lt w.toNat_lt

/-- Writing a word and reading it gives the word. -/
theorem ofLittleEndian_littleEndian (w : UInt64) : ofLittleEndian (littleEndian w) = w := by
  rw [← UInt64.toNat_inj, toNat_ofLittleEndian (by rfl), ofDigits_littleEndian]

/-- One instruction is read and then the others. -/
theorem decodeUpTo?_of_decodeOne? {bytes rest : List UInt8} {i : Instruction}
    (h : decodeOne? bytes = some (i, rest)) (count : Nat) :
    decodeUpTo? (count + 1) bytes = (decodeUpTo? count rest).map (i :: ·) := by
  cases bytes with
  | nil => simp [decodeOne?] at h
  | cons b bytes =>
    simp [decodeUpTo?, h, Option.map_eq_bind]

/-- The machine code of a trampoline says what the trampoline is to do. -/
theorem decode?_bytes (t : Trampoline) : decode? t.bytes = some t.instructions := by
  have hpush : decodeOne? t.bytes = some (.push .rbp, t.bytes.drop 1) := rfl
  have hmove : decodeOne? (t.bytes.drop 1) = some (.move .rbp .rsp, t.bytes.drop 4) := rfl
  have hfunction : decodeOne? (t.bytes.drop 4) =
      some (.load .rax (ofLittleEndian (littleEndian t.function)), t.bytes.drop 14) := rfl
  have hroutine : decodeOne? (t.bytes.drop 14) =
      some (.load .r10 (ofLittleEndian (littleEndian t.routine)), t.bytes.drop 24) := rfl
  have hjump : decodeOne? (t.bytes.drop 24) = some (.jump .r10, []) := rfl
  rw [ofLittleEndian_littleEndian] at hfunction hroutine
  rw [decode?, show t.bytes.length = 26 + 1 from rfl, decodeUpTo?_of_decodeOne? hpush,
    decodeUpTo?_of_decodeOne? hmove, decodeUpTo?_of_decodeOne? hfunction,
    decodeUpTo?_of_decodeOne? hroutine, decodeUpTo?_of_decodeOne? hjump]
  rfl

/-! ## The stack -/

namespace Machine

variable {m m' : Machine} {r x : Register} {v : UInt64} {callee : Address → Machine → Machine}
  {depth : Nat} {words : List UInt64} {code code' : List Instruction}

@[simp] theorem register_set_self (m : Machine) (r : Register) (v : UInt64) :
    (m.set r v).register r = v := if_pos rfl

@[simp] theorem register_set_of_ne (h : x ≠ r) : (m.set r v).register x = m.register x := if_neg h

@[simp] theorem word_set (m : Machine) (r : Register) (v : UInt64) :
    (m.set r v).word = m.word := rfl

@[simp] theorem register_push_rsp (m : Machine) (v : UInt64) :
    (m.push v).register .rsp = m.register .rsp - 8 := rfl

@[simp] theorem register_push_of_ne (h : x ≠ .rsp) :
    (m.push v).register x = m.register x := if_neg h

@[simp] theorem run_nil (callee : Address → Machine → Machine) (m : Machine) :
    m.run callee [] = m := rfl

@[simp] theorem run_cons (callee : Address → Machine → Machine) (m : Machine) (i : Instruction)
    (code : List Instruction) : m.run callee (i :: code) = (m.step callee i).run callee code := rfl

theorem run_append (callee : Address → Machine → Machine) (m : Machine)
    (code code' : List Instruction) :
    m.run callee (code ++ code') = (m.run callee code).run callee code' := List.foldl_append

/-- The address of a word on the stack, counted from the top. -/
def wordAt (m : Machine) (i : Nat) : Address := m.register .rsp + 8 * UInt64.ofNat i

/-- The first words on the stack, from the top on. -/
def stack (m : Machine) (count : Nat) : List UInt64 :=
  (List.range count).map fun i => m.word (m.wordAt i)

/-- How many words there are in the whole memory. -/
def memoryWords : Nat := 2 ^ 61

@[simp] theorem length_stack (m : Machine) (count : Nat) : (m.stack count).length = count := by
  simp [stack]

theorem stack_congr (hrsp : m'.register .rsp = m.register .rsp) (hword : m'.word = m.word)
    (count : Nat) : m'.stack count = m.stack count := by
  simp only [stack, wordAt, hrsp, hword]

@[simp] theorem wordAt_zero (m : Machine) : m.wordAt 0 = m.register .rsp := by
  rw [wordAt]
  grind

theorem wordAt_add (m : Machine) (i j : Nat) :
    m.wordAt (i + j) = m.wordAt i + 8 * UInt64.ofNat j := by
  rw [wordAt, wordAt, UInt64.ofNat_add]
  grind

theorem wordAt_push (m : Machine) (v : UInt64) (i : Nat) :
    (m.push v).wordAt (i + 1) = m.wordAt i := by
  rw [wordAt, wordAt, register_push_rsp, UInt64.ofNat_add]
  grind

/-- A word is pushed to a place where none of the words on the stack is. -/
theorem wordAt_ne {i : Nat} (hi : i + 1 < memoryWords) (m : Machine) :
    m.wordAt i ≠ m.register .rsp - 8 := by
  intro h
  have hzero : 8 * UInt64.ofNat (i + 1) = 0 := by
    rw [wordAt] at h
    rw [UInt64.ofNat_add]
    grind
  have hnat := congrArg UInt64.toNat hzero
  simp only [UInt64.toNat_mul, UInt64.toNat_ofNat', UInt64.reduceToNat] at hnat
  rw [memoryWords] at hi
  omega

/-- A word that is pushed is the first one on the stack, before those that were there. -/
theorem stack_push {count : Nat} (h : count < memoryWords) (m : Machine) (v : UInt64) :
    (m.push v).stack (count + 1) = v :: m.stack count := by
  have htop : (m.push v).word ((m.push v).wordAt 0) = v :=
    if_pos (by rw [wordAt_zero, register_push_rsp])
  rw [stack, List.range_succ_eq_map, List.map_cons, List.map_map, htop, stack]
  refine congrArg (v :: ·) (List.map_congr_left fun i hi => ?_)
  rw [List.mem_range] at hi
  rw [Function.comp_apply, Nat.succ_eq_add_one, wordAt_push]
  exact if_neg (wordAt_ne (by omega) m)

/-- Some words lie on the stack, and the frame pointer points to the one at a depth. -/
structure Framed (m : Machine) (depth : Nat) (words : List UInt64) : Prop where
  frame : m.register .rbp = m.wordAt depth
  stack : m.stack words.length = words

namespace Framed

theorem word_eq (h : m.Framed depth words) {i : Nat} (hi : i < words.length) :
    m.word (m.wordAt i) = words.getD i 0 := by
  conv_rhs => rw [← h.stack]
  simp [Machine.stack, hi]

/-- A word at an offset from the frame pointer. -/
theorem word_frame (h : m.Framed depth words) {i : Nat} (hi : depth + i < words.length) :
    m.word (m.register .rbp + 8 * UInt64.ofNat i) = words.getD (depth + i) 0 := by
  rw [h.frame, ← wordAt_add, h.word_eq hi]

theorem push (h : m.Framed depth words) (hroom : words.length < memoryWords) (v : UInt64) :
    (m.push v).Framed (depth + 1) (v :: words) where
  frame := by rw [register_push_of_ne (by decide), h.frame, wordAt_push]
  stack := by rw [List.length_cons, stack_push hroom, h.stack]

theorem set (h : m.Framed depth words) (hrsp : .rsp ≠ r) (hrbp : .rbp ≠ r) (v : UInt64) :
    (m.set r v).Framed depth words where
  frame := by
    rw [register_set_of_ne hrbp, h.frame, wordAt, wordAt, register_set_of_ne hrsp]
  stack := by rw [stack_congr (register_set_of_ne hrsp) rfl, h.stack]

/-- Room is made for some words. -/
theorem reserve (h : m.Framed depth words) (count : Nat) {m' : Machine}
    (hm' : m' = m.set .rsp (m.register .rsp - 8 * UInt64.ofNat count)) :
    m'.Framed (depth + count) (m'.stack count ++ words) := by
  have hat (i : Nat) : m'.wordAt (count + i) = m.wordAt i := by
    rw [hm', wordAt, wordAt, register_set_self, UInt64.ofNat_add]
    grind
  have hword : m'.word = m.word := by rw [hm', word_set]
  constructor
  · rw [hm', register_set_of_ne (by decide), ← hm', h.frame, Nat.add_comm, hat]
  · have hstack :
        (List.range words.length).map (fun i => m'.word (m'.wordAt (count + i))) = words := by
      simp only [hat, hword]
      exact h.stack
    rw [List.length_append, length_stack, Machine.stack, List.range_add, List.map_append,
      List.map_map]
    exact congrArg (_ ++ ·) hstack

/-- Some words above the frame pointer are pushed again, one after the other. -/
theorem run_pushFrame (h : m.Framed depth words) (callee : Address → Machine → Machine)
    (places : List Nat) (hplaces : ∀ i ∈ places, depth + i < words.length)
    (hroom : places.length + words.length ≤ memoryWords) :
    (m.run callee (places.map fun i => .pushFrame (8 * UInt64.ofNat i))).Framed
      (depth + places.length)
      ((places.map fun i => words.getD (depth + i) 0).reverse ++ words) := by
  induction places generalizing m depth words with
  | nil => exact h
  | cons i places ih =>
    rw [List.forall_mem_cons] at hplaces
    rw [List.length_cons] at hroom
    have hpush := h.push (by omega) (m.word (m.register .rbp + 8 * UInt64.ofNat i))
    rw [h.word_frame hplaces.1] at hpush
    have hinside : ∀ j ∈ places, depth + 1 + j < (words.getD (depth + i) 0 :: words).length := by
      intro j hj
      have hj := hplaces.2 j hj
      rw [List.length_cons]
      omega
    have hrest := ih hpush hinside (by rw [List.length_cons]; omega)
    -- the words that are still to be pushed lie one place deeper
    have hdeeper :
        places.map (fun j => (words.getD (depth + i) 0 :: words).getD (depth + 1 + j) 0) =
          places.map fun j => words.getD (depth + j) 0 := by
      refine List.map_congr_left fun j _ => ?_
      rw [Nat.add_right_comm, List.getD_cons_succ]
    rw [hdeeper, Nat.add_assoc, Nat.add_comm 1] at hrest
    rw [List.map_cons, List.map_cons, List.reverse_cons, List.append_assoc, List.singleton_append,
      List.length_cons, run_cons, step, h.word_frame hplaces.1]
    exact hrest

end Framed

theorem register_run_pushFrame (m : Machine) (callee : Address → Machine → Machine)
    (places : List Nat) (h : x ≠ .rsp) :
    (m.run callee (places.map fun i => .pushFrame (8 * UInt64.ofNat i))).register x =
      m.register x := by
  induction places generalizing m with
  | nil => rfl
  | cons i places ih => exact (ih _).trans (register_push_of_ne h)

end Machine

/-! ## From the trampoline to the call -/

namespace Trampoline

open Machine

/-- The arguments that a function called by the convention of Unix systems finds: six in registers
and the rest on the stack above the return address. -/
def sysvArguments (m : Machine) : List UInt64 :=
  sysvRegisters.map m.register ++
    (List.range (bridgedArguments - 6)).map fun i =>
      m.word (m.register .rsp + 8 + 8 * UInt64.ofNat i)

/-- The words above the frame pointer that the routine pushes again: the arguments on the stack,
from the last to the first. -/
def copiedPlaces : List Nat := [9, 8, 7, 6, 5, 4, 3, 2]

/-- The instructions that push them. -/
def copies : List Instruction := copiedPlaces.map fun i => .pushFrame (8 * UInt64.ofNat i)

/-- The instructions between those and the call. -/
def moves : List Instruction :=
  [.push .r9, .push .r8, .move .r8 .rdx, .move .r9 .rcx, .move .rcx .rdi, .move .rdx .rsi,
    .reserve 32]

theorem routineCode_eq : routineCode = copies ++ moves ++ [.call .rax, .leave, .ret] := rfl

variable (t : Trampoline) (m : Machine) (callee : Address → Machine → Machine)

/-- The state in which the routine is entered. -/
def entered : Machine :=
  (((m.push (m.register .rbp)).set .rbp (m.register .rsp - 8)).set .rax t.function).set .r10
    t.routine

theorem run_instructions : m.run callee t.instructions = t.entered m := rfl

theorem framed_entered : (t.entered m).Framed 0 (m.register .rbp :: m.stack 9) := by
  refine .set (.set ⟨?_, ?_⟩ (by decide) (by decide) _) (by decide) (by decide) _
  · rw [register_set_self, wordAt_zero, register_set_of_ne (by decide), register_push_rsp]
  · rw [List.length_cons, length_stack,
      stack_congr (register_set_of_ne (by decide)) (word_set _ _ _)]
    exact stack_push (by decide) _ _

/-- The state after the arguments on the stack were pushed again. -/
def copied : Machine := (t.entered m).run (fun _ m => m) copies

theorem run_copies : (t.entered m).run callee copies = t.copied m := rfl

theorem framed_copied :
    (t.copied m).Framed 8 ((m.stack 9).tail ++ m.register .rbp :: m.stack 9) :=
  (t.framed_entered m).run_pushFrame (fun _ m => m) copiedPlaces (by simp [copiedPlaces])
    (by rw [List.length_cons, length_stack]; decide)

theorem register_copied {r : Register} (h : r ≠ .rsp) :
    (t.copied m).register r = (t.entered m).register r :=
  register_run_pushFrame _ _ copiedPlaces h

/-- The state after the last two arguments in registers were pushed as well. -/
def pushed : Machine :=
  ((t.copied m).push ((t.copied m).register .r9)).push ((t.copied m).register .r8)

theorem framed_pushed : (t.pushed m).Framed 10
    (m.register .r8 :: m.register .r9 :: ((m.stack 9).tail ++ m.register .rbp :: m.stack 9)) := by
  have hr8 : (t.copied m).register .r8 = m.register .r8 := t.register_copied m (by decide)
  have hr9 : (t.copied m).register .r9 = m.register .r9 := t.register_copied m (by decide)
  rw [pushed, hr8, hr9]
  exact ((t.framed_copied m).push (by simp; decide) _).push (by simp; decide) _

theorem register_pushed {r : Register} (h : r ≠ .rsp) :
    (t.pushed m).register r = (t.entered m).register r := by
  rw [pushed, register_push_of_ne h, register_push_of_ne h, t.register_copied m h]

/-- The state after the other arguments in registers went to where the function expects them. -/
def moved : Machine :=
  ((((t.pushed m).set .r8 (m.register .rdx)).set .r9 (m.register .rcx)).set .rcx
    (m.register .rdi)).set .rdx (m.register .rsi)

/-- The state in which the routine calls the function. -/
def atCall : Machine := (t.moved m).set .rsp ((t.moved m).register .rsp - 8 * UInt64.ofNat 4)

/-- A register that is moved still holds what it held when the routine was entered. -/
theorem run_moves : (t.copied m).run callee moves = t.atCall m := by
  have hrdx : (t.pushed m).register .rdx = m.register .rdx := t.register_pushed m (by decide)
  have hrcx : (t.pushed m).register .rcx = m.register .rcx := t.register_pushed m (by decide)
  have hrdi : (t.pushed m).register .rdi = m.register .rdi := t.register_pushed m (by decide)
  have hrsi : (t.pushed m).register .rsi = m.register .rsi := t.register_pushed m (by decide)
  have hpushed : ((t.copied m).push ((t.copied m).register .r9)).push ((t.copied m).register .r8) =
      t.pushed m := rfl
  have hroom : 8 * UInt64.ofNat 4 = 32 := by decide
  simp (disch := decide) only [moves, run_cons, run_nil, step, register_push_of_ne, hpushed,
    register_set_of_ne, hrdx, hrcx, hrdi, hrsi, atCall, moved, hroom]

theorem framed_atCall : (t.atCall m).Framed 14 ((t.atCall m).stack 4 ++
    m.register .r8 :: m.register .r9 :: ((m.stack 9).tail ++ m.register .rbp :: m.stack 9)) := by
  have hmoved : (t.moved m).Framed 10 (m.register .r8 :: m.register .r9 ::
      ((m.stack 9).tail ++ m.register .rbp :: m.stack 9)) :=
    ((((t.framed_pushed m).set (by decide) (by decide) _).set (by decide) (by decide) _).set
      (by decide) (by decide) _).set (by decide) (by decide) _
  exact hmoved.reserve 4 rfl

/-- The other registers are as they were when the routine was entered. -/
theorem register_atCall {r : Register} (h : r ∉ [.r8, .r9, .rcx, .rdx, .rsp]) :
    (t.atCall m).register r = (t.entered m).register r := by
  simp only [List.mem_cons, List.not_mem_nil, or_false, not_or] at h
  obtain ⟨hr8, hr9, hrcx, hrdx, hrsp⟩ := h
  rw [atCall, moved, register_set_of_ne hrsp, register_set_of_ne hrdx, register_set_of_ne hrcx,
    register_set_of_ne hr9, register_set_of_ne hr8, t.register_pushed m hrsp]

theorem register_atCall_rax : (t.atCall m).register .rax = t.function :=
  t.register_atCall m (by decide)

theorem register_atCall_rbp : (t.atCall m).register .rbp = m.register .rsp - 8 :=
  t.register_atCall m (by decide)

theorem register_atCall_rsp : (t.atCall m).register .rsp = m.register .rsp - 120 := by
  have h := (t.framed_atCall m).frame
  have hdepth : 8 * UInt64.ofNat 14 = 112 := by decide
  rw [register_atCall_rbp, wordAt, hdepth] at h
  grind

theorem registers_atCall : winRegisters.map (t.atCall m).register =
    [m.register .rdi, m.register .rsi, m.register .rdx, m.register .rcx] := by
  rw [atCall, moved]
  simp (disch := decide) only [winRegisters, List.map_cons, List.map_nil, register_set_self,
    register_set_of_ne]

/-- The words above the room for the register arguments. -/
theorem words_atCall : (List.range (bridgedArguments - 4)).map (fun i =>
    (t.atCall m).word ((t.atCall m).register .rsp + 32 + 8 * UInt64.ofNat i)) =
      m.register .r8 :: m.register .r9 :: (m.stack 9).tail := by
  have hword : ∀ i ∈ List.range (bridgedArguments - 4),
      (t.atCall m).word ((t.atCall m).register .rsp + 32 + 8 * UInt64.ofNat i) =
        ((t.atCall m).stack 4 ++ m.register .r8 :: m.register .r9 ::
          ((m.stack 9).tail ++ m.register .rbp :: m.stack 9)).getD (4 + i) 0 := by
    intro i hi
    have hroom : (t.atCall m).register .rsp + 32 = (t.atCall m).wordAt 4 := rfl
    rw [List.mem_range, bridgedArguments] at hi
    rw [hroom, ← wordAt_add, (t.framed_atCall m).word_eq (by simp; omega)]
  rw [List.map_congr_left hword]
  rfl

/-- The arguments on the stack are the words above the return address. -/
theorem sysvArguments_eq : sysvArguments m =
    [m.register .rdi, m.register .rsi, m.register .rdx, m.register .rcx, m.register .r8,
      m.register .r9] ++ (m.stack 9).tail := by
  rw [sysvArguments, stack, List.range_succ_eq_map, List.map_cons, List.tail_cons, List.map_map]
  refine congrArg (sysvRegisters.map m.register ++ ·) (List.map_congr_left fun i _ => ?_)
  have haddress : m.register .rsp + 8 = m.wordAt 1 := rfl
  rw [Function.comp_apply, Nat.succ_eq_add_one, Nat.add_comm, wordAt_add, haddress]

/-- The function finds the arguments that the trampoline was called with. -/
theorem winArguments_atCall : winArguments (t.atCall m) = sysvArguments m := by
  rw [winArguments, registers_atCall, words_atCall, sysvArguments_eq]
  rfl

/-- A trampoline runs up to the call, the function runs, and then the routine returns. -/
theorem run_eq : t.run callee m =
    (callee t.function (t.atCall m)).run callee [.leave, .ret] := by
  rw [Trampoline.run, run_instructions, routineCode_eq, run_append, run_append, run_copies,
    run_moves, run_cons, step, register_atCall_rax]

/-- What a function keeps for its caller in the convention of Windows: the frame pointer, and the
words on the stack above its own, which are the room for the arguments in registers and the
arguments on the stack. Two of them matter: the caller's frame pointer and its return address. -/
structure KeepsFrame (function : Machine → Machine) (m : Machine) : Prop where
  frame : (function m).register .rbp = m.register .rbp
  words : ∀ i, bridgedArguments ≤ i → i < bridgedArguments + 2 →
    (function m).word (m.wordAt i) = m.word (m.wordAt i)

/-- A function that only returns something. -/
theorem keepsFrame_set_rax (value : Machine → UInt64) (m : Machine) :
    KeepsFrame (fun m => m.set .rax (value m)) m := ⟨rfl, fun _ _ _ => rfl⟩

/-- The routine returns. -/
theorem run_leave (d : Machine) : d.run callee [.leave, .ret] =
    (((d.set .rsp (d.register .rbp)).set .rsp (d.register .rbp + 8)).set .rbp
      (d.word (d.register .rbp))).set .rsp (d.register .rbp + 8 + 8) := rfl

theorem wordAt_atCall_frame : (t.atCall m).wordAt 14 = (t.atCall m).register .rbp :=
  (t.framed_atCall m).frame.symm

theorem wordAt_atCall_return : (t.atCall m).wordAt 15 = m.register .rsp := by
  rw [wordAt_add _ 14 1, wordAt_atCall_frame, register_atCall_rbp]
  grind

/-- The frame pointer stands at the frame pointer of the caller. -/
theorem word_atCall_frame :
    (t.atCall m).word ((t.atCall m).register .rbp) = m.register .rbp := by
  rw [← wordAt_atCall_frame, (t.framed_atCall m).word_eq (by simp)]
  rfl

/-- The return address still lies above it. -/
theorem word_atCall_return : (t.atCall m).word (m.register .rsp) = m.word (m.register .rsp) := by
  have hword := (t.framed_atCall m).word_eq (i := 15) (by simp)
  rw [wordAt_atCall_return] at hword
  rw [hword, ← m.wordAt_zero]
  rfl

/-- What the caller finds after the function returned. -/
theorem run_of_keepsFrame (h : KeepsFrame (callee t.function) (t.atCall m)) :
    (t.run callee m).register .rsp = m.register .rsp + 8 ∧
    (t.run callee m).register .rbp = m.register .rbp ∧
    (t.run callee m).register .rax = (callee t.function (t.atCall m)).register .rax ∧
    (t.run callee m).word (m.register .rsp) = m.word (m.register .rsp) := by
  have hframe := h.words 14 (by decide) (by decide)
  have hreturn := h.words 15 (by decide) (by decide)
  rw [wordAt_atCall_frame, word_atCall_frame] at hframe
  rw [wordAt_atCall_return, word_atCall_return] at hreturn
  rw [run_eq, run_leave, h.frame, hframe, register_atCall_rbp]
  refine ⟨?_, ?_, ?_, hreturn⟩
  · rw [register_set_self]
    grind
  · rw [register_set_of_ne (by decide), register_set_self]
  · rfl

/-! ## A call with some arguments -/

/-- A caller places fourteen arguments where the convention wants them. -/
theorem sysvArguments_sysvEntry {arguments : List UInt64} (h : arguments.length = 14) :
    sysvArguments (sysvEntry arguments) = arguments := by
  have hrsp : (sysvEntry arguments).register .rsp = entryStack := rfl
  have hregisters : sysvRegisters.map (sysvEntry arguments).register =
      (List.range 6).map fun i => arguments.getD i 0 := rfl
  have hplaces : ∀ i ∈ List.range 8, entryStack < entryStack + 8 + 8 * UInt64.ofNat i ∧
      ((entryStack + 8 + 8 * UInt64.ofNat i - entryStack) / 8 - 1).toNat = i := by
    decide
  have hwords : ∀ i ∈ List.range 8,
      (sysvEntry arguments).word (entryStack + 8 + 8 * UInt64.ofNat i) =
        arguments.getD (6 + i) 0 := by
    intro i hi
    obtain ⟨habove, hplace⟩ := hplaces i hi
    rw [sysvEntry]
    dsimp only
    rw [if_pos habove, hplace]
  have hall : sysvArguments (sysvEntry arguments) =
      (List.range (6 + 8)).map fun i => arguments.getD i 0 := by
    rw [sysvArguments, hregisters, hrsp, bridgedArguments, List.map_congr_left hwords,
      List.range_add, List.map_append, List.map_map]
    rfl
  rw [hall]
  refine List.ext_getElem (by simp [h]) fun i _ hi => ?_
  simp [hi]

/-- **A call through a trampoline reaches the function with the arguments of the caller.** The
machine code spells the five instructions with the two addresses as its operands. From any state of
the caller, the trampoline jumps to the routine and the routine comes to its call with the function
in `rax`, the arguments where the convention of Windows wants them and the stack aligned. When the
function keeps the frame of its caller, the caller finds its stack and its frame pointer as they
were, the return address taken off, and the result of the function. -/
theorem run_passes_arguments (t : Trampoline) (m : Machine)
    (haligned : (m.register .rsp + 8) % 16 = 0) :
    decode? t.bytes = some
      [.push .rbp, .move .rbp .rsp, .load .rax t.function, .load .r10 t.routine, .jump .r10] ∧
    Nat.ofDigits 256 (((t.bytes.drop 6).take 8).map UInt8.toNat) = t.function.toNat ∧
    Nat.ofDigits 256 (((t.bytes.drop 16).take 8).map UInt8.toNat) = t.routine.toNat ∧
    routineCode.drop 15 = [.call .rax, .leave, .ret] ∧
    winArguments (t.atCall m) = sysvArguments m ∧
    (t.atCall m).register .rax = t.function ∧
    (t.atCall m).register .rsp % 16 = 0 ∧
    ∀ callee : Address → Machine → Machine,
      (m.run callee t.instructions).register .r10 = t.routine ∧
      m.run callee (t.instructions ++ routineCode.take 15) = t.atCall m ∧
      t.run callee m = (callee t.function (t.atCall m)).run callee [.leave, .ret] ∧
      (KeepsFrame (callee t.function) (t.atCall m) →
        (t.run callee m).register .rsp = m.register .rsp + 8 ∧
        (t.run callee m).register .rbp = m.register .rbp ∧
        (t.run callee m).register .rax = (callee t.function (t.atCall m)).register .rax ∧
        (t.run callee m).word (m.register .rsp) = m.word (m.register .rsp)) := by
  have hrsp : (t.atCall m).register .rsp % 16 = 0 := by
    rw [register_atCall_rsp]
    grind
  have hcall (callee) : m.run callee (t.instructions ++ routineCode.take 15) = t.atCall m := by
    have hbefore : routineCode.take 15 = copies ++ moves := rfl
    rw [hbefore, run_append, run_instructions, run_append, run_copies, run_moves]
  exact ⟨decode?_bytes t, ofDigits_littleEndian t.function, ofDigits_littleEndian t.routine, rfl,
    t.winArguments_atCall m, t.register_atCall_rax m, hrsp,
    fun callee => ⟨rfl, hcall callee, t.run_eq m callee, t.run_of_keepsFrame m callee⟩⟩

/-- Fourteen arguments reach a function that returns the last of them. -/
theorem run_passes_arguments_fourteen :
    let t : Trampoline := ⟨0x1122334455667788, 0x99AABBCCDDEEFF00⟩
    let m := sysvEntry [1, 2, 3, 4, 5, 6, 7, 8, 9, 10, 11, 12, 13, 14]
    let callee := fun (_ : Address) (m : Machine) => m.set .rax ((winArguments m).getD 13 0)
    (m.register .rsp + 8) % 16 = 0 ∧
      winArguments (t.atCall m) = [1, 2, 3, 4, 5, 6, 7, 8, 9, 10, 11, 12, 13, 14] ∧
      KeepsFrame (callee t.function) (t.atCall m) ∧
      (t.run callee m).register .rsp = m.register .rsp + 8 ∧
      (t.run callee m).register .rax = 14 := by
  intro t m callee
  have haligned : (m.register .rsp + 8) % 16 = 0 := by decide
  have hkeeps : KeepsFrame (callee t.function) (t.atCall m) := keepsFrame_set_rax _ _
  obtain ⟨-, -, -, -, harguments, -, -, hrun⟩ := run_passes_arguments t m haligned
  rw [sysvArguments_sysvEntry rfl] at harguments
  obtain ⟨-, -, -, hreturn⟩ := hrun callee
  obtain ⟨hrsp, -, hrax, -⟩ := hreturn hkeeps
  refine ⟨haligned, harguments, hkeeps, hrsp, ?_⟩
  rw [hrax, register_set_self, harguments]
  rfl

end Trampoline

end LiveC
