import Paparazzi.Generator.Telemetry

/-!
How often the generated macro sends each message of a telemetry mode.
-/

namespace Paparazzi.Generator.Telemetry

open Paparazzi.Generator.PeriodicChain
open Paparazzi.Generator.Settings (Attribs attrib)
open Paparazzi.Library
open Paparazzi.Library.Machine
open Paparazzi.Library.MapM

/-! ### What is printed -/

section

variable {F : Type} {fl : Floats F} {freq : Nat}

def messageName (x : Attribs) : String := (attrib x "name").getD ""

/-- An entry is of its message, with a phase from the attribute or below the modulo. -/
def IsEntry (fl : Floats F) (freq : Nat) (m : Attribs × Nat) (e : Entry String) : Prop :=
  e.modulo = m.2 ∧ e.body = messageName m.1 ∧ ∃ i : Nat, i < m.2 ∧ e.phase = messagePhase fl freq i m.1

theorem entries_isEntry {i : Nat} {messages : List (Attribs × Nat)} {es : List (Entry String)}
    (hpos : ∀ m ∈ messages, 0 < m.2) (h : entries fl freq i messages = some es) :
    List.Forall₂ (IsEntry fl freq) messages es := by
  induction messages generalizing i es with
  | nil =>
      cases h
      exact .nil
  | cons m messages ih =>
      obtain ⟨name, hname, h⟩ := Option.bind_eq_some_iff.mp h
      obtain ⟨rest, hrest, rfl⟩ := Option.map_eq_some_iff.mp h
      have hbody : name = messageName m.1 := by rw [messageName, hname, Option.getD_some]
      refine .cons ⟨rfl, hbody, i % m.2, Nat.mod_lt _ (hpos m List.mem_cons_self), rfl⟩ ?_
      exact ih (fun m hm => hpos m (List.mem_cons_of_mem _ hm)) hrest

def messageModulo (fl : Floats F) (freq : Nat) (x : Attribs) : Nat :=
  boundedModulo ((ticks fl freq x "period").getD 0)

/-- A message of a mode, with its modulo, for an entry. -/
def IsMessage (fl : Floats F) (freq : Nat) (modules : List String) (mode : Mode)
    (e : Entry String) (x : Attribs) : Prop :=
  x ∈ filteredMsg modules mode ∧ ∃ v, ticks fl freq x "period" = some v ∧
    IsEntry fl freq (x, boundedModulo v) e

/-- The tests of a block, in the order of their modulos. -/
structure Printed (b : Block) (es : List (Entry String)) : Prop where
  tests : b.tests = link [] es
  sorted : es.Pairwise fun e e' => e.modulo ≤ e'.modulo
  nodup : b.modulos.Nodup
  mem : ∀ e ∈ es, e.modulo ∈ b.modulos

/-- The block of a mode tests for its messages. -/
structure BlockOf (fl : Floats F) (freq : Nat) (modules : List String) (mode : Mode) (b : Block)
    (es : List (Entry String)) : Prop extends Printed b es where
  complete : (es.map fun e => (e.body, e.modulo)).Perm
    ((filteredMsg modules mode).map fun x => (messageName x, messageModulo fl freq x))
  message : ∀ e ∈ es, ∃ x, IsMessage fl freq modules mode e x
  entry : ∀ x ∈ filteredMsg modules mode, ∃ e ∈ es, IsMessage fl freq modules mode e x

theorem map_isEntry {messages : List (Attribs × Nat)} {es : List (Entry String)}
    (h : List.Forall₂ (IsEntry fl freq) messages es) :
    es.map (fun e => (e.body, e.modulo)) = messages.map fun m => (messageName m.1, m.2) := by
  induction h with
  | nil => rfl
  | cons hme _ ih => rw [List.map_cons, List.map_cons, ih, hme.1, hme.2.1]

theorem withModulo_eq {x : Attribs} {m : Attribs × Nat} (h : withModulo fl freq x = some m) :
    m = (x, messageModulo fl freq x) := by
  obtain ⟨v, hv, rfl⟩ := Option.map_eq_some_iff.mp h
  rw [messageModulo, hv, Option.getD_some]

theorem mem_withModulo {l : List Attribs} {messages : List (Attribs × Nat)}
    (h : l.mapM (withModulo fl freq) = some messages) {m : Attribs × Nat} (hm : m ∈ messages) :
    m.1 ∈ l ∧ ∃ v, ticks fl freq m.1 "period" = some v ∧ m.2 = boundedModulo v := by
  obtain ⟨k, hk⟩ := List.getElem?_of_mem hm
  obtain ⟨x, hx, hmod⟩ := getElem?_of_forall₂ (forall₂_of_mapM h) hk
  obtain ⟨v, hv, rfl⟩ := Option.map_eq_some_iff.mp hmod
  exact ⟨List.mem_of_getElem? hx, v, hv, rfl⟩

theorem outputMode_blockOf {modes : List Mode} {modules : List String} {mode : Mode} {b : Block}
    (h : outputMode fl freq modes modules mode = some b) :
    ∃ es, BlockOf fl freq modules mode b es := by
  obtain ⟨messages, hmessages, h⟩ := Option.bind_eq_some_iff.mp h
  obtain ⟨es, hes, rfl⟩ := Option.map_eq_some_iff.mp h
  have hall := entries_isEntry (fun m hm => by
    obtain ⟨-, v, -, hv⟩ := mem_withModulo hmessages (mem_sortByModulo.mp hm)
    rw [hv]
    exact (isModulo_boundedModulo v).1) hes
  have hmap := map_isEntry hall
  have hmodulo : es.map Entry.modulo = (sortByModulo messages).map Prod.snd := by
    have hsnd := congrArg (List.map Prod.snd) hmap
    rwa [List.map_map, List.map_map] at hsnd
  refine ⟨es, ⟨rfl, ?_, nodup_singletonize _, ?_⟩, ?_, ?_, ?_⟩
  · have hsorted := sorted_sortByModulo messages
    have hpair : ((sortByModulo messages).map Prod.snd).Pairwise (· ≤ ·) :=
      List.pairwise_map.mpr hsorted
    rw [← hmodulo] at hpair
    exact List.pairwise_map.mp hpair
  · intro e he
    have hmem : e.modulo ∈ (sortByModulo messages).map Prod.snd := by
      rw [← hmodulo]
      exact List.mem_map_of_mem he
    obtain ⟨m, hm, hmod⟩ := List.mem_map.mp hmem
    rw [mem_singletonize, ← hmod]
    exact List.mem_map_of_mem (mem_sortByModulo.mp hm)
  · have hwith : messages = (filteredMsg modules mode).map fun x => (x, messageModulo fl freq x) :=
      eq_map_of_mapM (fun _ _ => withModulo_eq) hmessages
    have hperm : (sortByModulo messages).Perm messages := List.perm_insertionSort _ _
    have hmessage := hperm.map fun m => (messageName m.1, m.2)
    rwa [← hmap, hwith, List.map_map] at hmessage
  · intro e he
    obtain ⟨k, hk⟩ := List.getElem?_of_mem he
    obtain ⟨m, hm, hentry⟩ := getElem?_of_forall₂ hall hk
    obtain ⟨hmem, v, hv, hmod⟩ :=
      mem_withModulo hmessages (mem_sortByModulo.mp (List.mem_of_getElem? hm))
    refine ⟨m.1, hmem, v, hv, ?_⟩
    rw [← hmod]
    exact hentry
  · intro x hx
    obtain ⟨k, hk⟩ := List.getElem?_of_mem hx
    obtain ⟨m, hm, hmod⟩ := getElem?_of_forall₂ (forall₂_of_mapM hmessages).flip hk
    obtain ⟨v, hv, rfl⟩ := Option.map_eq_some_iff.mp hmod
    have hsorted := mem_sortByModulo.mpr (List.mem_of_getElem? hm)
    obtain ⟨k, hk⟩ := List.getElem?_of_mem hsorted
    obtain ⟨e, he, hentry⟩ := getElem?_of_forall₂ hall.flip hk
    exact ⟨e, List.mem_of_getElem? he, hx, v, hv, hentry⟩

end

/-! ### One call -/

theorem timesSent_send (k m : Nat) (n : Nat) (message : String) (sent : List Sent) :
    timesSent k m (send k n message sent) = timesSent k m sent + if n = m then 1 else 0 := by
  rw [timesSent, send, List.countP_append, List.countP_singleton]
  simp [timesSent]

theorem timesSent_send_of_ne {k k' : Nat} (hne : k ≠ k') (m n : Nat) (message : String)
    (sent : List Sent) : timesSent k' m (send k n message sent) = timesSent k' m sent := by
  rw [timesSent, send, List.countP_append, List.countP_singleton]
  simp [timesSent, hne]

section

variable {b : Block} {es : List (Entry String)}

theorem callBlock_eq (h : Printed b es) (k : Nat) (s : State) :
    callBlock k b s =
      ⟨Function.update s.counters k (bumpAll b.modulos (s.counters k)),
        runEntries (bumpAll b.modulos (s.counters k)) (fun _ _ => true) (send k) 0 es s.sent⟩ := by
  rw [callBlock, h.tests, runTests_link _ _ _ (seen_nil _ h.sorted)]

theorem callBlock_self (h : Printed b es) {n : Nat} {e : Entry String} (he : es[n]? = some e)
    (k : Nat) (s : State) :
    (callBlock k b s).counters k e.modulo = bump e.modulo (s.counters k e.modulo) ∧
      timesSent k n (callBlock k b s).sent = timesSent k n s.sent +
        if (bump e.modulo (s.counters k e.modulo) : Int) = e.phase then 1 else 0 := by
  have hbump := bumpAll_of_mem h.nodup (h.mem e (List.mem_of_getElem? he)) (s.counters k)
  rw [callBlock_eq h]
  refine ⟨?_, ?_⟩
  · simp only [Function.update_self, hbump]
  · rw [count_runEntries _ _ _ (timesSent_send k n) (Nat.zero_add n) he, hbump]
    simp

theorem callBlock_other (h : Printed b es) {k k' : Nat} (hne : k ≠ k') (m : Nat) (s : State) :
    (callBlock k b s).counters k' = s.counters k' ∧
      timesSent k' m (callBlock k b s).sent = timesSent k' m s.sent := by
  rw [callBlock_eq h]
  exact ⟨Function.update_of_ne hne.symm .., runEntries_eq _ _ _ (timesSent_send_of_ne hne m) _ _ _⟩

theorem callBlocks_of_lt {bs : List Block} (hbs : ∀ b ∈ bs, ∃ es, Printed b es) {k k' : Nat}
    (hlt : k' < k) (t m : Nat) (s : State) :
    (callBlocks t k bs s).counters k' = s.counters k' ∧
      timesSent k' m (callBlocks t k bs s).sent = timesSent k' m s.sent := by
  induction bs generalizing k s with
  | nil => exact ⟨rfl, rfl⟩
  | cons b bs ih =>
      obtain ⟨hb, hbs⟩ := List.forall_mem_cons.mp hbs
      obtain ⟨es, hb⟩ := hb
      obtain ⟨hcounters, hsent⟩ := ih hbs (Nat.lt_succ_of_lt hlt)
        (if t = b.number then callBlock k b s else s)
      rw [callBlocks, hcounters, hsent]
      split_ifs
      · exact callBlock_other hb hlt.ne' m s
      · exact ⟨rfl, rfl⟩

/-- A call counts and sends for a block when its mode is active, and leaves it alone otherwise. -/
theorem callBlocks_at {bs : List Block} (hbs : ∀ b ∈ bs, ∃ es, Printed b es) {j n : Nat}
    (hb : bs[j]? = some b) (hprinted : Printed b es) {e : Entry String} (he : es[n]? = some e)
    (k t : Nat) (s : State) :
    (callBlocks t k bs s).counters (k + j) e.modulo =
        (if t = b.number then bump e.modulo (s.counters (k + j) e.modulo)
          else s.counters (k + j) e.modulo) ∧
      timesSent (k + j) n (callBlocks t k bs s).sent = timesSent (k + j) n s.sent +
        if t = b.number ∧ (bump e.modulo (s.counters (k + j) e.modulo) : Int) = e.phase
          then 1 else 0 := by
  induction bs generalizing k j s with
  | nil => cases hb
  | cons b' bs ih =>
      obtain ⟨hb', hrest⟩ := List.forall_mem_cons.mp hbs
      obtain ⟨es', hb'⟩ := hb'
      rw [callBlocks]
      cases j with
      | zero =>
          cases hb
          obtain ⟨hcounters, hsent⟩ := callBlocks_of_lt hrest (Nat.lt_add_one k) t n
            (if t = b.number then callBlock k b s else s)
          obtain ⟨hself, hself'⟩ := callBlock_self hprinted he k s
          simp only [Nat.add_zero]
          rw [hcounters, hsent]
          by_cases ht : t = b.number
          · simp only [ht, true_and]
            exact ⟨hself, hself'⟩
          · simp [ht]
      | succ j =>
          have hne : k ≠ k + (j + 1) := by omega
          have hturn : (if t = b'.number then callBlock k b' s else s).counters (k + (j + 1)) =
              s.counters (k + (j + 1)) ∧
              timesSent (k + (j + 1)) n (if t = b'.number then callBlock k b' s else s).sent =
                timesSent (k + (j + 1)) n s.sent := by
            split_ifs
            · exact callBlock_other hb' hne n s
            · exact ⟨rfl, rfl⟩
          have hih := ih hrest hb (k + 1) (if t = b'.number then callBlock k b' s else s)
          rw [show k + 1 + j = k + (j + 1) from by omega, hturn.1, hturn.2] at hih
          exact hih

/-! ### Runs -/

variable {out : List Block} (hout : ∀ b ∈ out, ∃ es, Printed b es)

include hout

/-- In a run a message is sent as often as its counter shows its phase while the mode is
active. -/
theorem timesSent_run {k n : Nat} (hb : out[k]? = some b) (hprinted : Printed b es)
    {e : Entry String} (he : es[n]? = some e) (calls : List Nat) (s : State) :
    timesSent k n (run (periodicSend out) s calls).sent = timesSent k n s.sent +
      hits e.modulo e.phase (s.counters k e.modulo) (calls.count b.number) := by
  induction calls generalizing s with
  | nil => rfl
  | cons t calls ih =>
      have hcall := callBlocks_at hout hb hprinted he 0 t s
      rw [Nat.zero_add] at hcall
      rw [run_cons, ih, periodicSend, hcall.1, hcall.2, List.count_cons]
      by_cases ht : t = b.number
      · simp only [ht, true_and, if_true, beq_self_eq_true, hits]
        omega
      · simp only [ht, false_and, if_false, beq_iff_eq, Nat.add_zero]

/-- The counters are below their modulos. -/
theorem counters_lt {k n : Nat} (hb : out[k]? = some b) (hprinted : Printed b es)
    {e : Entry String} (he : es[n]? = some e) (hm : IsModulo e.modulo) (calls : List Nat)
    {s : State} (hs : s.counters k e.modulo < e.modulo) :
    (run (periodicSend out) s calls).counters k e.modulo < e.modulo := by
  induction calls generalizing s with
  | nil => exact hs
  | cons t calls ih =>
      have hcall := callBlocks_at hout hb hprinted he 0 t s
      rw [Nat.zero_add] at hcall
      refine ih ?_
      rw [periodicSend, hcall.1]
      split_ifs
      · exact bump_lt hm hs
      · exact hs

end

/-- The tests of a mode are for its messages, and while the mode is active, each message is sent
exactly once in as many calls as its modulo says. -/
structure EachSentOnce {F : Type} (fl : Floats F) (freq : Nat) (modes : List Mode)
    (modules : List String) (out : List Block) : Prop where
  complete : List.Forall₂ (fun mode (b : Block) => (b.tests.map fun t => (t.2, t.1.modulo)).Perm
    ((filteredMsg modules mode).map fun x => (messageName x, messageModulo fl freq x))) modes out
  once : ∀ (before calls : List Nat) (k n : Nat) (b : Block) (t : Test × String),
    out[k]? = some b → b.tests[n]? = some t → calls.count b.number = t.1.modulo →
      timesSent k n (run (periodicSend out) (run (periodicSend out) start before) calls).sent =
        timesSent k n (run (periodicSend out) start before).sent + 1

/-- Every phase that is given is one of the values of its counter. -/
def PhasesInRange {F : Type} (fl : Floats F) (freq : Nat) (modes : List Mode)
    (modules : List String) : Prop :=
  ∀ mode ∈ modes, ∀ x ∈ filteredMsg modules mode, ∀ period phase,
    ticks fl freq x "period" = some period → ticks fl freq x "phase" = some phase →
      0 ≤ phase ∧ phase < boundedModulo period

section

variable {F : Type} {fl : Floats F} {freq : Nat} {modes : List Mode} {modules : List String}
  {out : List Block}

theorem blockOf_of_mem (h : outputModes fl freq modes modules = some out) {k : Nat} {b : Block}
    (hb : out[k]? = some b) :
    ∃ mode ∈ modes, ∃ es, BlockOf fl freq modules mode b es := by
  obtain ⟨mode, hmode, houtput⟩ := getElem?_of_forall₂ (forall₂_of_mapM h) hb
  exact ⟨mode, List.mem_of_getElem? hmode, outputMode_blockOf houtput⟩

theorem printed_of_mem (h : outputModes fl freq modes modules = some out) :
    ∀ b ∈ out, ∃ es, Printed b es := by
  intro b hb
  obtain ⟨k, hk⟩ := List.getElem?_of_mem hb
  obtain ⟨mode, hmode, es, hes⟩ := blockOf_of_mem h hk
  exact ⟨es, hes.toPrinted⟩

/-- The tests are those of the entries. -/
theorem map_link {β : Type*} (l : List (Nat × Int)) (es : List (Entry β)) :
    (link l es).map (fun t => (t.2, t.1.modulo)) = es.map fun e => (e.body, e.modulo) := by
  induction es generalizing l with
  | nil => rfl
  | cons e es ih => rw [link, List.map_cons, List.map_cons, ih]

theorem modulo_of_getElem? {b : Block} {es : List (Entry String)} (h : Printed b es) (n : Nat) :
    (b.tests[n]?).map (fun t => t.1.modulo) = es[n]?.map Entry.modulo := by
  have hget := congrArg (fun l => (l[n]?).map Prod.snd) (map_link [] es)
  simp only [← h.tests, List.getElem?_map, Option.map_map] at hget
  exact hget

theorem phase_in_range (hphases : PhasesInRange fl freq modes modules) {mode : Mode}
    (hmode : mode ∈ modes) {e : Entry String} {x : Attribs}
    (hx : IsMessage fl freq modules mode e x) : 0 ≤ e.phase ∧ e.phase < e.modulo := by
  obtain ⟨hmem, v, hv, hmodulo, -, i, hi, hphase⟩ := hx
  rw [hphase, hmodulo, messagePhase]
  cases hticks : ticks fl freq x "phase" with
  | none => exact ⟨Int.natCast_nonneg i, Int.ofNat_lt.mpr hi⟩
  | some phase => exact hphases mode hmode x hmem v phase hv hticks

theorem isModulo_of_isMessage {mode : Mode} {e : Entry String} {x : Attribs}
    (hx : IsMessage fl freq modules mode e x) : IsModulo e.modulo := by
  obtain ⟨-, v, -, hmodulo, -⟩ := hx
  rw [hmodulo]
  exact isModulo_boundedModulo v

/-- Every message is sent once a period exactly when the phases that are given are values of the
counters. -/
theorem messages_sent_iff (h : outputModes fl freq modes modules = some out) :
    EachSentOnce fl freq modes modules out ↔ PhasesInRange fl freq modes modules := by
  have hprinted := printed_of_mem h
  constructor
  · intro hsent mode hmode x hx period phase hperiod hphase
    obtain ⟨k, hk⟩ := List.getElem?_of_mem hmode
    obtain ⟨b, hb, houtput⟩ := getElem?_of_forall₂ (forall₂_of_mapM h).flip hk
    obtain ⟨es, hes⟩ := outputMode_blockOf houtput
    obtain ⟨e, he, hmessage⟩ := hes.entry x hx
    have hm := isModulo_of_isMessage hmessage
    obtain ⟨-, v, hv, hmodulo, -, i, -, hephase⟩ := hmessage
    obtain ⟨n, hn⟩ := List.getElem?_of_mem he
    have htest : (b.tests[n]?).map (fun t => t.1.modulo) = some e.modulo := by
      rw [modulo_of_getElem? hes.toPrinted, hn, Option.map_some]
    obtain ⟨t, ht, hteq⟩ := Option.map_eq_some_iff.mp htest
    have honce := hsent.once [] (List.replicate e.modulo b.number) k n b t hb ht
      (by rw [List.count_replicate_self, hteq])
    rw [timesSent_run hprinted hb hes.toPrinted hn, List.count_replicate_self] at honce
    rw [hperiod] at hv
    cases hv
    rw [messagePhase, hphase, Option.getD_some] at hephase
    by_contra hout
    have hrange : e.phase < 0 ∨ (e.modulo : Int) ≤ e.phase := by
      rw [hephase, hmodulo]
      by_contra hnot
      exact hout (by omega)
    have hstart : (run (periodicSend out) start []).counters k e.modulo < e.modulo := hm.1
    rw [hits_eq_zero hm hrange hstart] at honce
    omega
  · intro hphases
    refine ⟨(forall₂_of_mapM h).imp fun mode b hmode => ?_, ?_⟩
    · obtain ⟨es, hes⟩ := outputMode_blockOf hmode
      rw [hes.tests, map_link]
      exact hes.complete
    intro before calls k n b t hb ht hcalls
    obtain ⟨mode, hmode, es, hes⟩ := blockOf_of_mem h hb
    have hentry : es[n]?.map Entry.modulo = some t.1.modulo := by
      rw [← modulo_of_getElem? hes.toPrinted, ht, Option.map_some]
    obtain ⟨e, he, hmodulo⟩ := Option.map_eq_some_iff.mp hentry
    obtain ⟨x, hx⟩ := hes.message e (List.mem_of_getElem? he)
    have hm := isModulo_of_isMessage hx
    obtain ⟨h0, hlt⟩ := phase_in_range hphases hmode hx
    have hcounter := counters_lt hprinted hb hes.toPrinted he hm before (s := start) hm.1
    rw [timesSent_run hprinted hb hes.toPrinted he, hcalls, ← hmodulo,
      hits_self hm h0 hlt hcounter]

end

/-! ### Examples -/

def mode (phase : String) : Mode where
  name := "default"
  messages := [[("name", "ALIVE"), ("period", "1"), ("phase", phase)]]

/-- The macro for a mode with one message, at ten calls a second. -/
def block (phase : Int) : Block := ⟨0, [10], [(⟨false, 10, phase⟩, "ALIVE")]⟩

theorem messages_sent_phase_zero :
    EachSentOnce wholes 10 [mode "0"] [] [block 0] ↔ PhasesInRange wholes 10 [mode "0"] [] :=
  messages_sent_iff (show outputModes wholes 10 [mode "0"] [] = some [block 0] from rfl)

/-- A message whose phase is its period is never sent. -/
theorem message_never_sent :
    ¬ ∀ out, outputModes wholes 10 [mode "1"] [] = some out →
      EachSentOnce wholes 10 [mode "1"] [] out := by
  intro h
  have honce := (h [block 10] rfl).once [] (List.replicate 10 0) 0 0 (block 10)
    (⟨false, 10, 10⟩, "ALIVE") rfl rfl rfl
  exact absurd honce (by decide)

end Paparazzi.Generator.Telemetry
