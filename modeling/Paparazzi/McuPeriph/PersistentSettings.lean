import Mathlib.Data.List.Nodup
import Mathlib.Logic.Function.Basic
import Mathlib.Tactic.SplitIfs
import Paparazzi.Library.Bytes

/-!
The persistent settings of the STM32F1: one block of bytes in the last page of the flash,
with its size and its checksum in the last eight bytes of the page. A power loss can come
between any two operations on the flash.
-/

namespace Paparazzi.McuPeriph.PersistentSettings

open Paparazzi.Library

/-! ### Memories -/

/-- The bytes of an address space. -/
abbrev Memory := Nat → UInt8

/-- The half-words of the flash, by their address, which is even. -/
abbrev Flash := Nat → UInt16

/-- The flash as the processor reads it. -/
def Flash.bytes (flash : Flash) : Memory := fun a =>
  if a % 2 = 0 then (flash a).toUInt8 else (flash (a - 1) >>> 8).toUInt8

/-- `size` bytes from an address on. -/
def block (mem : Memory) (ptr size : Nat) : List UInt8 :=
  (List.range size).map fun i => mem (ptr + i)

/-- `*(uint32_t*) a`. -/
def uint32At (mem : Memory) (a : Nat) : Nat := LittleEndian.ofBytes (block mem a 4)

inductive FlashOp where
  | erasePage (addr pageSize : Nat)
  | programHalfWord (word : Nat × UInt16)

/-- Erasing sets every half-word of the page, and only an erased half-word can be
programmed. -/
def FlashOp.apply (flash : Flash) : FlashOp → Flash
  | .erasePage addr pageSize =>
      fun a => if addr ≤ a ∧ a < addr + pageSize then 0xFFFF else flash a
  | .programHalfWord (address, data) =>
      if flash address = 0xFFFF then Function.update flash address data else flash

def applyAll (flash : Flash) (ops : List FlashOp) : Flash := ops.foldl FlashOp.apply flash

/-! ### Reading and writing the page -/

structure FlashInfo where
  addr : Nat
  totalSize : Nat
  pageNr : Nat
  pageSize : Nat

def flashBegin : Nat := 0x08000000
def fsiz : Nat := 8
def fchk : Nat := 4

/-- From the size of the flash in kBytes, which the processor has in a register. -/
def flashDetect (flashSize : UInt16) : Option FlashInfo :=
  let totalSize := flashSize.toNat * 0x400
  let info := fun pageSize =>
    { addr := flashBegin + (totalSize / pageSize - 1) * pageSize
      totalSize := totalSize
      pageNr := totalSize / pageSize - 1
      pageSize := pageSize }
  if totalSize ∈ [0x00004000, 0x00008000, 0x00010000, 0x00020000] then some (info 0x400)
  else if totalSize ∈ [0x00040000, 0x00080000, 0x000C0000, 0x00100000] then some (info 0x800)
  else none

section

variable (crc : List UInt32 → UInt32)

/-- The first bytes of a word, put together one by one. -/
def assemble (mem : Memory) (a n : Nat) : UInt32 :=
  UInt32.ofNat ((List.range n).foldl (fun s i => s ||| (mem (a + i)).toNat <<< (8 * i)) 0)

/-- `crc` gives the contents of `CRC_DR` after the words that were written to it since its
reset. -/
def pflashChecksum (mem : Memory) (ptr size : Nat) : UInt32 :=
  let words := (List.range (size / 4)).map fun j =>
    if ptr % 4 ≠ 0 then assemble mem (ptr + 4 * j) 4
    else UInt32.ofNat (uint32At mem (ptr + 4 * j))
  let i := 4 * (size / 4)
  let remaining :=
    match size % 4 with
    | 1 => [assemble mem (ptr + i) 1]
    | 2 => [assemble mem (ptr + i) 2]
    | 3 => [assemble mem (ptr + i) 3]
    | _ => []
  crc (words ++ remaining)

/-- What a call did to the flash, in order, and the value that it returned. -/
structure Written where
  ops : List FlashOp
  code : Int

/-- The half-words of the block; the last byte of an odd block is filled with a zero. -/
def dataWords (info : FlashInfo) (ram : Memory) (src size : Nat) : List (Nat × UInt16) :=
  ((List.range (size / 2)).map fun j =>
    (info.addr + 2 * j,
      UInt16.ofNat ((ram (src + 2 * j)).toNat + 256 * (ram (src + 2 * j + 1)).toNat))) ++
  if size % 2 = 1 then
    [(info.addr + 2 * (size / 2), (ram (src + 2 * (size / 2))).toUInt16)]
  else []

/-- A 32-bit value, the low half first. -/
def halves (address value : Nat) : List (Nat × UInt16) :=
  [(address, UInt16.ofNat (value % 0x10000)),
    (address + 2, UInt16.ofNat (value / 0x10000 % 0x10000))]

/-- Every half-word that is programmed, in order. -/
def programmed (info : FlashInfo) (ram : Memory) (src size : Nat) (chksum : UInt32) :
    List (Nat × UInt16) :=
  dataWords info ram src size ++
    (halves (info.addr + info.pageSize - fsiz) size ++
      halves (info.addr + info.pageSize - fchk) chksum.toNat)

def pflashProgramBytes (info : FlashInfo) (flash : Flash) (ram : Memory) (src size : Nat)
    (chksum : UInt32) : Written :=
  let erase := FlashOp.erasePage info.addr info.pageSize
  if ∃ j ∈ List.range (info.pageSize / 4),
      uint32At (erase.apply flash).bytes (info.addr + 4 * j) ≠ 0xFFFFFFFF then
    ⟨[erase], -1⟩
  else
    let ops := erase :: (programmed info ram src size chksum).map .programHalfWord
    let mem := (applyAll flash ops).bytes
    if ∃ i ∈ List.range size, mem (info.addr + i) ≠ ram (src + i) then ⟨ops, -2⟩
    else if uint32At mem (info.addr + info.pageSize - fsiz) ≠ size then ⟨ops, -3⟩
    else if uint32At mem (info.addr + info.pageSize - fchk) ≠ chksum.toNat then ⟨ops, -4⟩
    else ⟨ops, 0⟩

def persistentWrite (flashSize : UInt16) (flash : Flash) (ram : Memory) (ptr size : Nat) :
    Written :=
  match flashDetect flashSize with
  | none => ⟨[], -1⟩
  | some info =>
      if size > info.pageSize - fsiz ∨ size = 0 then ⟨[], -2⟩
      else pflashProgramBytes info flash ram ptr size (pflashChecksum crc ram ptr size)

/-- The copying loop of `persistent_read`. -/
def copy (mem : Memory) (src : Nat) (ram : Memory) (ptr size : Nat) : Memory :=
  (List.range size).foldl (fun ram i => Function.update ram (ptr + i) (mem (src + i))) ram

/-- The value that is returned, and the memory after the call. -/
def persistentRead (flashSize : UInt16) (flash : Flash) (ram : Memory) (ptr size : Nat) :
    Int × Memory :=
  match flashDetect flashSize with
  | none => (-1, ram)
  | some info =>
      if size > info.pageSize - fsiz ∨ size = 0 then (-2, ram)
      else if size ≠ uint32At flash.bytes (info.addr + info.pageSize - fsiz) then (-3, ram)
      else if (pflashChecksum crc flash.bytes info.addr size).toNat ≠
          uint32At flash.bytes (info.addr + info.pageSize - fchk) then
        (-4, ram)
      else (0, copy flash.bytes info.addr ram ptr size)

end

end Paparazzi.McuPeriph.PersistentSettings
