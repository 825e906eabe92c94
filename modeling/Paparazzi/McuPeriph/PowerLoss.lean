import Paparazzi.McuPeriph.PersistentSettings

/-!
A power loss while the settings are written: the page is then unreadable, or it holds one of
the two blocks completely.
-/

namespace Paparazzi.McuPeriph.PersistentSettings

open Paparazzi.Library

/-! ### Reading words -/

@[simp] theorem length_block (mem : Memory) (ptr size : Nat) : (block mem ptr size).length = size := by
  simp [block]

theorem block_congr {mem mem' : Memory} {ptr ptr' size : Nat}
    (h : ∀ i < size, mem (ptr + i) = mem' (ptr' + i)) :
    block mem ptr size = block mem' ptr' size :=
  List.map_congr_left fun i hi => h i (List.mem_range.mp hi)

theorem getD_block {mem : Memory} {ptr size i : Nat} (hi : i < size) :
    (block mem ptr size).getD i 0 = mem (ptr + i) := by
  simp [block, List.getD_eq_getElem?_getD, hi]

/-- The two ways to read a word agree. -/
theorem assemble_eq (mem : Memory) (a n : Nat) :
    assemble mem a n = UInt32.ofNat (LittleEndian.ofBytes (block mem a n)) := by
  have hfold : (List.range n).foldl (fun s i => s ||| (mem (a + i)).toNat <<< (8 * i)) 0 =
      (List.range n).foldl
        (fun s i => s ||| ((block mem a n).getD (0 + i) 0).toNat <<< (8 * i)) 0 := by
    apply List.foldl_ext
    intro s i hi
    rw [Nat.zero_add, getD_block (List.mem_range.mp hi)]
  have hfield : LittleEndian.field (block mem a n) 0 n =
      LittleEndian.ofBytes (block mem a n) := by
    rw [LittleEndian.field, LittleEndian.slice, List.drop_zero, List.take_of_length_le]
    rw [length_block]
  rw [assemble, hfold, LittleEndian.foldl_or_shift, hfield]

/-- The checksum only depends on the bytes, and not on where they are. -/
theorem pflashChecksum_congr (crc : List UInt32 → UInt32) {mem mem' : Memory}
    {ptr ptr' size : Nat} (h : ∀ i < size, mem (ptr + i) = mem' (ptr' + i)) :
    pflashChecksum crc mem ptr size = pflashChecksum crc mem' ptr' size := by
  have hblock : ∀ j n, j + n ≤ size → block mem (ptr + j) n = block mem' (ptr' + j) n := by
    intro j n hjn
    apply block_congr
    intro i hi
    rw [Nat.add_assoc, Nat.add_assoc]
    exact h (j + i) (by omega)
  have hword : ∀ j < size / 4,
      (if ptr % 4 ≠ 0 then assemble mem (ptr + 4 * j) 4
        else UInt32.ofNat (uint32At mem (ptr + 4 * j))) =
      if ptr' % 4 ≠ 0 then assemble mem' (ptr' + 4 * j) 4
        else UInt32.ofNat (uint32At mem' (ptr' + 4 * j)) := by
    intro j hj
    simp only [assemble_eq, uint32At, ite_self]
    rw [hblock (4 * j) 4 (by omega)]
  have hwords := List.map_congr_left fun j hj => hword j (List.mem_range.mp hj)
  have hrest : ∀ n, 4 * (size / 4) + n ≤ size →
      assemble mem (ptr + 4 * (size / 4)) n = assemble mem' (ptr' + 4 * (size / 4)) n := by
    intro n hn
    rw [assemble_eq, assemble_eq, hblock _ n hn]
  have hlt := Nat.mod_lt size (by decide : 4 > 0)
  have hsize : 4 * (size / 4) + size % 4 = size := Nat.div_add_mod size 4
  simp only [pflashChecksum]
  rw [hwords]
  generalize size % 4 = r at hlt hsize
  match r with
  | 0 => rfl
  | 1 => exact congrArg (fun w => crc (_ ++ [w])) (hrest 1 (by omega))
  | 2 => exact congrArg (fun w => crc (_ ++ [w])) (hrest 2 (by omega))
  | 3 => exact congrArg (fun w => crc (_ ++ [w])) (hrest 3 (by omega))

theorem bytes_even (flash : Flash) {a : Nat} (ha : a % 2 = 0) :
    flash.bytes a = (flash a).toUInt8 := if_pos ha

theorem bytes_odd (flash : Flash) {a : Nat} (ha : a % 2 = 0) :
    flash.bytes (a + 1) = (flash a >>> 8).toUInt8 := if_neg (by omega)

theorem toNat_bytes (flash : Flash) {a : Nat} (ha : a % 2 = 0) :
    (flash.bytes a).toNat + 256 * (flash.bytes (a + 1)).toNat = (flash a).toNat := by
  have hlt := (flash a).toNat_lt
  rw [bytes_even flash ha, bytes_odd flash ha]
  simp only [UInt16.toNat_toUInt8, UInt16.toNat_shiftRight, UInt16.toNat_ofNat, Nat.reduceMod,
    Nat.reducePow, Nat.shiftRight_eq_div_pow]
  omega

theorem uint32At_bytes (flash : Flash) {a : Nat} (ha : a % 2 = 0) :
    uint32At flash.bytes a = (flash a).toNat + 0x10000 * (flash (a + 2)).toNat := by
  have hlow := toNat_bytes flash ha
  have hhigh := @toNat_bytes flash (a + 2) (by omega)
  simp only [uint32At, block, List.range_succ, List.range_zero, List.nil_append, List.map_cons,
    List.map_nil, List.cons_append, LittleEndian.ofBytes, Nat.add_zero]
  rw [show a + 2 + 1 = a + 3 by rfl] at hhigh
  omega

/-! ### Programming -/

section Programming

variable {flash : Flash} {words : List (Nat × UInt16)} {a : Nat} {v : UInt16}

theorem applyAll_cons (flash : Flash) (op : FlashOp) (ops : List FlashOp) :
    applyAll flash (op :: ops) = applyAll (op.apply flash) ops := rfl

theorem program_of_ne (flash : Flash) {w : Nat × UInt16} (h : a ≠ w.1) :
    (FlashOp.programHalfWord w).apply flash a = flash a := by
  simp only [FlashOp.apply]
  split_ifs
  · exact Function.update_of_ne h _ _
  · rfl

theorem applyAll_of_notMem (h : a ∉ words.map Prod.fst) :
    applyAll flash (words.map .programHalfWord) a = flash a := by
  induction words generalizing flash with
  | nil => rfl
  | cons w words ih =>
      rw [List.map_cons, List.mem_cons, not_or] at h
      rw [List.map_cons, applyAll_cons, ih h.2, program_of_ne flash h.1]

/-- What is programmed once over an erased half-word stays there. -/
theorem applyAll_of_mem (hnodup : (words.map Prod.fst).Nodup)
    (herased : ∀ w ∈ words, flash w.1 = 0xFFFF) (h : (a, v) ∈ words) :
    applyAll flash (words.map .programHalfWord) a = v := by
  induction words generalizing flash with
  | nil => exact absurd h List.not_mem_nil
  | cons w words ih =>
      rw [List.map_cons, List.nodup_cons] at hnodup
      rw [List.map_cons, applyAll_cons]
      rcases List.mem_cons.mp h with rfl | hmem
      · rw [applyAll_of_notMem hnodup.1]
        simp only [FlashOp.apply, herased (a, v) List.mem_cons_self, if_true,
          Function.update_self]
      · refine ih hnodup.2 ?_ hmem
        intro w' hw'
        have hne : w'.1 ≠ w.1 := fun heq => hnodup.1 (heq ▸ List.mem_map_of_mem hw')
        rw [program_of_ne flash hne]
        exact herased w' (List.mem_cons_of_mem w hw')

end Programming

/-! ### The page -/

theorem flashDetect_page {flashSize : UInt16} {info : FlashInfo}
    (h : flashDetect flashSize = some info) :
    info.addr % 4 = 0 ∧ (info.pageSize = 0x400 ∨ info.pageSize = 0x800) := by
  simp only [flashDetect] at h
  split_ifs at h
  · injection h with h
    subst h
    exact ⟨by dsimp only [flashBegin]; omega, Or.inl rfl⟩
  · injection h with h
    subst h
    exact ⟨by dsimp only [flashBegin]; omega, Or.inr rfl⟩

/-- The page of the settings, and a block that fits into it. -/
structure Fits (info : FlashInfo) (size : Nat) : Prop where
  aligned : info.addr % 4 = 0
  pageSize : info.pageSize = 0x400 ∨ info.pageSize = 0x800
  pos : 0 < size
  le : size ≤ info.pageSize - fsiz

section

variable {info : FlashInfo} {ram : Memory} {src size : Nat} {chksum : UInt32}

theorem map_fst_dataWords : (dataWords info ram src size).map Prod.fst =
    (List.range ((size + 1) / 2)).map fun j => info.addr + 2 * j := by
  rcases Nat.mod_two_eq_zero_or_one size with heven | hodd
  · have hhalf : (size + 1) / 2 = size / 2 := by omega
    simp [dataWords, heven, hhalf, Function.comp_def]
  · have hhalf : (size + 1) / 2 = size / 2 + 1 := by omega
    simp [dataWords, hodd, hhalf, List.range_succ, Function.comp_def]

theorem mem_dataWords_fst (h : Fits info size) {a : Nat}
    (ha : a ∈ (dataWords info ram src size).map Prod.fst) :
    info.addr ≤ a ∧ a + 2 ≤ info.addr + info.pageSize - fsiz := by
  rw [map_fst_dataWords] at ha
  obtain ⟨j, hj, rfl⟩ := List.mem_map.mp ha
  have hle := h.le
  have hpage := h.pageSize
  have := List.mem_range.mp hj
  simp only [fsiz] at hle ⊢
  omega

theorem map_fst_programmed : (programmed info ram src size chksum).map Prod.fst =
    (dataWords info ram src size).map Prod.fst ++
      [info.addr + info.pageSize - fsiz, info.addr + info.pageSize - fsiz + 2,
        info.addr + info.pageSize - fchk, info.addr + info.pageSize - fchk + 2] := by
  simp [programmed, halves]

theorem nodup_programmed (h : Fits info size) :
    ((programmed info ram src size chksum).map Prod.fst).Nodup := by
  have hpage := h.pageSize
  rw [map_fst_programmed, List.nodup_append]
  refine ⟨?_, ?_, ?_⟩
  · rw [map_fst_dataWords]
    refine List.Nodup.map ?_ List.nodup_range
    intro i j hij
    simpa using hij
  · simp only [fsiz, fchk, List.nodup_cons, List.mem_cons, List.not_mem_nil, or_false,
      not_false_eq_true, List.nodup_nil, and_true]
    omega
  · intro a ha b hb
    have := (mem_dataWords_fst h ha).2
    simp only [fsiz, fchk, List.mem_cons, List.not_mem_nil, or_false] at hb this
    omega

theorem programmed_in_page (h : Fits info size) {w : Nat × UInt16}
    (hw : w ∈ programmed info ram src size chksum) :
    info.addr ≤ w.1 ∧ w.1 < info.addr + info.pageSize := by
  have hpage := h.pageSize
  have hmem := List.mem_map_of_mem (f := Prod.fst) hw
  rw [map_fst_programmed, List.mem_append] at hmem
  rcases hmem with hdata | hrest
  · have := mem_dataWords_fst h hdata
    simp only [fsiz] at this
    omega
  · simp only [fsiz, fchk, List.mem_cons, List.not_mem_nil, or_false] at hrest
    omega

/-- The half-words of the block that are programmed give its bytes. -/
theorem bytes_of_dataWords (h : Fits info size) {flash : Flash}
    (hwords : ∀ a v, (a, v) ∈ dataWords info ram src size → flash a = v) :
    ∀ i < size, flash.bytes (info.addr + i) = ram (src + i) := by
  intro i hi
  have haddr := h.aligned
  have hbyte := (ram (src + i)).toNat_lt
  obtain ⟨j, rfl | rfl⟩ : ∃ j, i = 2 * j ∨ i = 2 * j + 1 := ⟨i / 2, by omega⟩
  · rw [bytes_even flash (by omega)]
    by_cases hlast : j = size / 2
    · have hodd : size % 2 = 1 := by omega
      have hmem : (info.addr + 2 * j, (ram (src + 2 * j)).toUInt16) ∈
          dataWords info ram src size := by
        rw [dataWords, if_pos hodd, hlast]
        exact List.mem_append_right _ (List.mem_singleton.mpr rfl)
      rw [hwords _ _ hmem, UInt8.toUInt8_toUInt16]
    · have hmem : (info.addr + 2 * j,
          UInt16.ofNat ((ram (src + 2 * j)).toNat + 256 * (ram (src + 2 * j + 1)).toNat)) ∈
            dataWords info ram src size :=
        List.mem_append_left _ (List.mem_map.mpr ⟨j, List.mem_range.mpr (by omega), rfl⟩)
      rw [hwords _ _ hmem]
      apply UInt8.toNat_inj.mp
      simp only [UInt16.toNat_toUInt8, UInt16.toNat_ofNat']
      omega
  · have hmem : (info.addr + 2 * j,
        UInt16.ofNat ((ram (src + 2 * j)).toNat + 256 * (ram (src + 2 * j + 1)).toNat)) ∈
          dataWords info ram src size :=
      List.mem_append_left _ (List.mem_map.mpr ⟨j, List.mem_range.mpr (by omega), rfl⟩)
    have hlow := (ram (src + 2 * j)).toNat_lt
    rw [← Nat.add_assoc, bytes_odd flash (by omega), hwords _ _ hmem]
    apply UInt8.toNat_inj.mp
    simp only [UInt16.toNat_toUInt8, UInt16.toNat_ofNat', UInt16.toNat_shiftRight,
      UInt16.toNat_ofNat, Nat.reduceMod, Nat.reducePow, Nat.shiftRight_eq_div_pow]
    rw [← Nat.add_assoc] at hbyte ⊢
    omega

end

/-! ### Reading the page -/

/-- The page holds a block with its size and its checksum, as a write leaves it that was not
interrupted. -/
structure Stores (crc : List UInt32 → UInt32) (info : FlashInfo) (flash : Flash)
    (data : List UInt8) : Prop where
  bytes : block flash.bytes info.addr data.length = data
  size : uint32At flash.bytes (info.addr + info.pageSize - fsiz) = data.length
  chksum : uint32At flash.bytes (info.addr + info.pageSize - fchk) =
    (pflashChecksum crc (fun a => data.getD a 0) 0 data.length).toNat

/-- The bytes from `ptr` on are `data`, and all the others are what they were. -/
structure Filled (before after : Memory) (ptr : Nat) (data : List UInt8) : Prop where
  block : block after ptr data.length = data
  frame : ∀ a, a < ptr ∨ ptr + data.length ≤ a → after a = before a

theorem copy_succ (mem : Memory) (src : Nat) (ram : Memory) (ptr size : Nat) :
    copy mem src ram ptr (size + 1) =
      Function.update (copy mem src ram ptr size) (ptr + size) (mem (src + size)) := by
  simp only [copy, List.range_succ, List.foldl_append, List.foldl_cons, List.foldl_nil]

theorem copy_apply (mem : Memory) (src : Nat) (ram : Memory) (ptr size : Nat) (a : Nat) :
    copy mem src ram ptr size a =
      if ptr ≤ a ∧ a < ptr + size then mem (src + (a - ptr)) else ram a := by
  induction size with
  | zero =>
      rw [if_neg (by omega)]
      rfl
  | succ size ih =>
      rw [copy_succ, Function.update_apply, ih]
      split_ifs with heq hin hin' hin'
      · rw [heq, Nat.add_sub_cancel_left]
      · omega
      · rfl
      · omega
      · omega
      · rfl

theorem filled_copy (mem : Memory) (src : Nat) (ram : Memory) (ptr size : Nat) :
    Filled ram (copy mem src ram ptr size) ptr (block mem src size) where
  block := by
    rw [length_block]
    apply block_congr
    intro i hi
    rw [copy_apply, if_pos (by omega), Nat.add_sub_cancel_left]
  frame := by
    intro a ha
    rw [length_block] at ha
    rw [copy_apply, if_neg (by omega)]

section

variable (crc : List UInt32 → UInt32) {flashSize : UInt16} {flash : Flash} {ram : Memory}
  {ptr size : Nat}

/-- What a reading that succeeds has found. -/
theorem persistentRead_cases (flashSize : UInt16) (flash : Flash) (ram : Memory) (ptr size : Nat) :
    ((persistentRead crc flashSize flash ram ptr size).1 < 0 ∧
        (persistentRead crc flashSize flash ram ptr size).2 = ram) ∨
      ∃ info, flashDetect flashSize = some info ∧ Fits info size ∧
        size = uint32At flash.bytes (info.addr + info.pageSize - fsiz) ∧
        (pflashChecksum crc flash.bytes info.addr size).toNat =
          uint32At flash.bytes (info.addr + info.pageSize - fchk) ∧
        persistentRead crc flashSize flash ram ptr size =
          (0, copy flash.bytes info.addr ram ptr size) := by
  unfold persistentRead
  cases hinfo : flashDetect flashSize with
  | none => exact Or.inl ⟨by simp, rfl⟩
  | some info =>
      obtain ⟨haddr, hpage⟩ := flashDetect_page hinfo
      dsimp only
      split_ifs with hsize hstored hchk
      · exact Or.inl ⟨by simp, rfl⟩
      · exact Or.inl ⟨by simp, rfl⟩
      · exact Or.inl ⟨by simp, rfl⟩
      · refine Or.inr ⟨info, rfl, ⟨haddr, hpage, ?_, ?_⟩, ?_, ?_, rfl⟩
        · omega
        · omega
        · exact not_not.mp hstored
        · exact not_not.mp hchk

theorem stores_block {info : FlashInfo}
    (hsize : size = uint32At flash.bytes (info.addr + info.pageSize - fsiz))
    (hchk : (pflashChecksum crc flash.bytes info.addr size).toNat =
      uint32At flash.bytes (info.addr + info.pageSize - fchk)) :
    Stores crc info flash (block flash.bytes info.addr size) where
  bytes := by rw [length_block]
  size := by rw [length_block, ← hsize]
  chksum := by
    rw [← hchk, length_block]
    congr 1
    apply pflashChecksum_congr
    intro i hi
    rw [Nat.zero_add, getD_block hi]

/-- A page that holds a block is read. -/
theorem persistentRead_of_stores {info : FlashInfo} (hinfo : flashDetect flashSize = some info)
    (hfits : Fits info size) {data : List UInt8} (hlength : data.length = size)
    (h : Stores crc info flash data) :
    (persistentRead crc flashSize flash ram ptr size).1 = 0 ∧
      Filled ram (persistentRead crc flashSize flash ram ptr size).2 ptr data := by
  subst hlength
  have hpos := hfits.pos
  have hle := hfits.le
  have hchk : (pflashChecksum crc flash.bytes info.addr data.length).toNat =
      uint32At flash.bytes (info.addr + info.pageSize - fchk) := by
    rw [h.chksum]
    congr 1
    apply pflashChecksum_congr
    intro i hi
    rw [Nat.zero_add, ← @getD_block flash.bytes info.addr _ i hi, h.bytes]
  have hread : persistentRead crc flashSize flash ram ptr data.length =
      (0, copy flash.bytes info.addr ram ptr data.length) := by
    simp only [persistentRead, hinfo]
    rw [if_neg (by omega), if_neg (by rw [h.size]; exact not_not.mpr rfl),
      if_neg (not_not.mpr hchk)]
  have hfilled := filled_copy flash.bytes info.addr ram ptr data.length
  rw [h.bytes] at hfilled
  rw [hread]
  exact ⟨rfl, hfilled⟩

theorem pflashProgramBytes_of_code {info : FlashInfo} {chksum : UInt32}
    (h : (pflashProgramBytes info flash ram ptr size chksum).code = 0) :
    let mem := (applyAll flash (pflashProgramBytes info flash ram ptr size chksum).ops).bytes
    (∀ i < size, mem (info.addr + i) = ram (ptr + i)) ∧
      uint32At mem (info.addr + info.pageSize - fsiz) = size ∧
      uint32At mem (info.addr + info.pageSize - fchk) = chksum.toNat := by
  unfold pflashProgramBytes at h ⊢
  dsimp only at h ⊢
  split_ifs at h with herase hdata hstored hchk
  · simp at h
  · simp at h
  · simp at h
  · simp at h
  · rw [if_neg herase, if_neg hdata, if_neg hstored, if_neg hchk]
    refine ⟨?_, not_not.mp hstored, not_not.mp hchk⟩
    intro i hi
    by_contra hne
    exact hdata ⟨i, List.mem_range.mpr hi, hne⟩

/-- What a write that succeeds has done. -/
theorem stores_of_persistentWrite (h : (persistentWrite crc flashSize flash ram ptr size).code = 0) :
    ∃ info, flashDetect flashSize = some info ∧ Fits info size ∧
      Stores crc info (applyAll flash (persistentWrite crc flashSize flash ram ptr size).ops)
        (block ram ptr size) := by
  unfold persistentWrite at h ⊢
  cases hinfo : flashDetect flashSize with
  | none => simp [hinfo] at h
  | some info =>
      obtain ⟨haddr, hpage⟩ := flashDetect_page hinfo
      rw [hinfo] at h
      dsimp only at h ⊢
      split_ifs at h ⊢ with hsize
      · simp at h
      · obtain ⟨hdata, hstored, hchk⟩ := pflashProgramBytes_of_code h
        refine ⟨info, rfl, ⟨haddr, hpage, by omega, by omega⟩, ?_, ?_, ?_⟩
        · rw [length_block]
          exact block_congr hdata
        · rw [length_block, hstored]
        · rw [hchk, length_block]
          congr 1
          apply pflashChecksum_congr
          intro i hi
          rw [Nat.zero_add, getD_block hi]

/-! ### Interrupted writes -/

/-- The state of the flash when the power is lost after `k` operations of a write. -/
def afterLoss (flash : Flash) (w : Written) (k : Nat) : Flash := applyAll flash (w.ops.take k)

/-- The operations of a write, if it does any. -/
theorem persistentWrite_ops (flashSize : UInt16) (flash : Flash) (ram : Memory) (ptr size : Nat) :
    (persistentWrite crc flashSize flash ram ptr size).ops = [] ∨
      ∃ info, flashDetect flashSize = some info ∧ Fits info size ∧ ∃ words,
        words <+: programmed info ram ptr size (pflashChecksum crc ram ptr size) ∧
          (persistentWrite crc flashSize flash ram ptr size).ops =
            .erasePage info.addr info.pageSize :: words.map .programHalfWord := by
  unfold persistentWrite
  cases hinfo : flashDetect flashSize with
  | none => exact Or.inl rfl
  | some info =>
      obtain ⟨haddr, hpage⟩ := flashDetect_page hinfo
      dsimp only
      split_ifs with hsize
      · exact Or.inl rfl
      · right
        refine ⟨info, rfl, ⟨haddr, hpage, by omega, by omega⟩, ?_⟩
        simp only [pflashProgramBytes]
        split_ifs with herase
        · exact ⟨[], List.nil_prefix, rfl⟩
        all_goals exact ⟨_, List.prefix_rfl, rfl⟩

/-- The flash after the erasing and the first half-words. -/
def partlyWritten (info : FlashInfo) (flash : Flash) (words : List (Nat × UInt16)) : Flash :=
  applyAll flash (.erasePage info.addr info.pageSize :: words.map .programHalfWord)

theorem afterLoss_cases (flashSize : UInt16) (flash : Flash) (ram : Memory) (ptr size k : Nat) :
    let flash' := afterLoss flash (persistentWrite crc flashSize flash ram ptr size) k
    flash' = flash ∨
      ∃ info, flashDetect flashSize = some info ∧ Fits info size ∧ ∃ words,
        words <+: programmed info ram ptr size (pflashChecksum crc ram ptr size) ∧
          flash' = partlyWritten info flash words := by
  rcases persistentWrite_ops crc flashSize flash ram ptr size with
    hnil | ⟨info, hinfo, hfits, words, hfirst, hops⟩
  · left
    rw [afterLoss, hnil, List.take_nil]
    rfl
  · cases k with
    | zero => exact Or.inl rfl
    | succ k =>
        refine Or.inr ⟨info, hinfo, hfits, words.take k, ?_, ?_⟩
        · exact (List.take_prefix k words).trans hfirst
        · rw [afterLoss, hops, List.take_succ_cons, ← List.map_take]
          rfl

/-- As long as the high half of the size is not programmed, there is no block of that size. -/
theorem size_of_short {info : FlashInfo} (hfits : Fits info size) {words : List (Nat × UInt16)}
    (hwords : info.addr + info.pageSize - fsiz + 2 ∉ words.map Prod.fst) :
    size ≠ uint32At (partlyWritten info flash words).bytes
      (info.addr + info.pageSize - fsiz) := by
  have haddr := hfits.aligned
  have hpage := hfits.pageSize
  have hle := hfits.le
  have herased : (FlashOp.erasePage info.addr info.pageSize).apply flash
      (info.addr + info.pageSize - fsiz + 2) = 0xFFFF := by
    simp only [FlashOp.apply, fsiz]
    exact if_pos (by omega)
  have hhigh : partlyWritten info flash words (info.addr + info.pageSize - fsiz + 2) = 0xFFFF := by
    rw [partlyWritten, applyAll_cons, applyAll_of_notMem hwords, herased]
  rw [uint32At_bytes _ (by simp only [fsiz]; omega), hhigh]
  change size ≠ _ + 0x10000 * 0xFFFF
  omega

/-- When the high half of the size is programmed, the block is already there. -/
theorem block_of_long {info : FlashInfo} (hfits : Fits info size) {chksum : UInt32}
    {words : List (Nat × UInt16)} (hfirst : words <+: programmed info ram ptr size chksum)
    (hlong : (dataWords info ram ptr size).length ≤ words.length) :
    block (partlyWritten info flash words).bytes info.addr size = block ram ptr size := by
  apply block_congr
  apply bytes_of_dataWords hfits
  intro a v hmem
  have hdata : dataWords info ram ptr size <+: words :=
    List.prefix_of_prefix_length_le (List.prefix_append _ _) hfirst hlong
  have hnodup : (words.map Prod.fst).Nodup :=
    (nodup_programmed hfits).sublist (hfirst.sublist.map Prod.fst)
  rw [partlyWritten, applyAll_cons]
  apply applyAll_of_mem hnodup _ (hdata.subset hmem)
  intro w hw
  exact if_pos (programmed_in_page hfits (hfirst.subset hw))

/-- The page is one of the two. -/
theorem short_or_long {info : FlashInfo} (hfits : Fits info size) {chksum : UInt32}
    {words : List (Nat × UInt16)} (hfirst : words <+: programmed info ram ptr size chksum) :
    info.addr + info.pageSize - fsiz + 2 ∉ words.map Prod.fst ∨
      (dataWords info ram ptr size).length ≤ words.length := by
  rcases Nat.lt_or_ge words.length (dataWords info ram ptr size).length with hlt | hge
  · left
    intro hmem
    have hdata : words <+: dataWords info ram ptr size :=
      List.prefix_of_prefix_length_le hfirst (List.prefix_append _ _) hlt.le
    have := (mem_dataWords_fst hfits ((hdata.sublist.map Prod.fst).subset hmem)).2
    omega
  · exact Or.inr hge

/-- A later reading of the same size gives nothing, or the new block, or the block that the
page held before; and a write that returns 0 is read back. -/
theorem settings_survive (crc : List UInt32 → UInt32) (flashSize : UInt16) (flash : Flash)
    (ram ram' : Memory) (ptr ptr' size : Nat) :
    let w := persistentWrite crc flashSize flash ram ptr size
    (∀ k,
      let r := persistentRead crc flashSize (afterLoss flash w k) ram' ptr' size
      (r.1 < 0 ∧ r.2 = ram') ∨
        (r.1 = 0 ∧ Filled ram' r.2 ptr' (block ram ptr size)) ∨
        (r.1 = 0 ∧ ∃ info data, flashDetect flashSize = some info ∧ Stores crc info flash data ∧
          data.length = size ∧ Filled ram' r.2 ptr' data)) ∧
      (w.code = 0 →
        let r := persistentRead crc flashSize (applyAll flash w.ops) ram' ptr' size
        r.1 = 0 ∧ Filled ram' r.2 ptr' (block ram ptr size)) := by
  intro w
  constructor
  · intro k r
    rcases persistentRead_cases crc flashSize (afterLoss flash w k) ram' ptr' size with
      hneg | ⟨info, hinfo, hfits, hsize, hchk, hread⟩
    · exact Or.inl hneg
    · right
      have hr : r = (0, copy (afterLoss flash w k).bytes info.addr ram' ptr' size) := hread
      have hfilled := filled_copy (afterLoss flash w k).bytes info.addr ram' ptr' size
      rw [hr]
      rcases afterLoss_cases crc flashSize flash ram ptr size k with
        hsame | ⟨info', hinfo', hfits', words, hfirst, hpart⟩
      · -- nothing was done to the page
        right
        rw [hsame] at hsize hchk hfilled ⊢
        exact ⟨rfl, info, _, hinfo, stores_block crc hsize hchk, length_block _ _ _, hfilled⟩
      · left
        obtain rfl : info = info' := Option.some.inj (hinfo.symm.trans hinfo')
        have hlong : (dataWords info ram ptr size).length ≤ words.length :=
          (short_or_long hfits hfirst).resolve_left fun hshort =>
            size_of_short hfits hshort (hpart ▸ hsize)
        rw [hpart, block_of_long hfits hfirst hlong, ← hpart] at hfilled
        exact ⟨rfl, hfilled⟩
  · intro hcode r
    obtain ⟨info, hinfo, hfits, hstores⟩ := stores_of_persistentWrite crc hcode
    exact persistentRead_of_stores crc hinfo hfits (length_block _ _ _) hstores

end

end Paparazzi.McuPeriph.PersistentSettings
