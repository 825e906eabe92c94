import Mathlib.Data.List.Induction
import Paparazzi.Link.LinkCombiner

/-!
Which messages of several links the combiner forwards, and how often.
-/

namespace Paparazzi.Link.ExactlyOnce

open Paparazzi.Library.Machine
open Paparazzi.Link.LinkCombiner

/-! ### Deliveries -/

/-- The messages of an aircraft, in the order in which it sends them. -/
structure Texts where
  text : Nat → String
  text_ne : ∀ n, text n ≠ ""

/-- A link hands over the message with the number `msg`. -/
structure Delivery (Name : Type) where
  link : Name
  msg : Nat
  deriving DecidableEq

section

variable {Name : Type} [DecidableEq Name] (t : Texts)

def messageOf (d : Delivery Name) : Message Name where
  linkName := d.link
  message := t.text d.msg
  message_ne := t.text_ne d.msg

/-- The combiner, with the numbers of the messages at whose deliveries it has sent. -/
def deliver (cfg : Config) (s : Combiner Name × List Nat) (d : Delivery Name) :
    Combiner Name × List Nat :=
  (onIvyMessage cfg s.1 (messageOf t d),
    if forwards cfg s.1 (messageOf t d) then s.2 ++ [d.msg] else s.2)

def deliverAll (cfg : Config) (es : List (Delivery Name)) : Combiner Name × List Nat :=
  run (deliver t cfg) (start cfg, []) es

/-- Every message that is delivered is forwarded once, and nothing else is. -/
def ForwardedOnce (cfg : Config) (es : List (Delivery Name)) : Prop :=
  (∀ n, (deliverAll t cfg es).2.count n = if ∃ d ∈ es, d.msg = n then 1 else 0) ∧
    (deliverAll t cfg es).1.sent = (deliverAll t cfg es).2.map t.text

/-! ### Schedules -/

/-- Each link delivers its messages in the order in which they were sent, each of them once. -/
def InOrder (es : List (Delivery Name)) : Prop :=
  es.Pairwise fun d e => d.link = e.link → d.msg < e.msg

/-- Between two deliveries of one message, each link delivers fewer messages than a buffer holds. -/
def WithinBuffer (size : Nat) (es : List (Delivery Name)) : Prop :=
  ∀ pre d mid e post, es = pre ++ d :: (mid ++ e :: post) → d.msg = e.msg →
    ∀ link, (mid.filter fun c => c.link = link).length < size

def ageStep (link : Name) (msg : Nat) (a : Option Nat) (d : Delivery Name) : Option Nat :=
  if d.link = link then if d.msg = msg then some 0 else a.map (· + 1) else a

/-- How many messages the link has delivered since it delivered `msg`. -/
def age (link : Name) (msg : Nat) (es : List (Delivery Name)) : Option Nat :=
  es.foldl (ageStep link msg) none

/-- The last delivery of a message with the text. -/
def lastWith (x : String) (es : List (Delivery Name)) : Option (Delivery Name) :=
  (es.filter fun d => t.text d.msg = x).getLast?

/-- When a message comes for the first time, the earlier messages with its text are not delivered
any more; and the last of them either is in the buffer of the link that the message comes on, or
has left the buffers of all links. -/
def Separated (size : Nat) (es : List (Delivery Name)) : Prop :=
  ∀ pre d post, es = pre ++ d :: post → (∀ e ∈ pre, e.msg ≠ d.msg) →
    (∀ e ∈ pre, t.text e.msg = t.text d.msg → ∀ e' ∈ post, e'.msg ≠ e.msg) ∧
      ∀ c, lastWith t (t.text d.msg) pre = some c →
        (∃ p < size, age d.link c.msg pre = some p) ∨
          ∀ link p, age link c.msg pre = some p → size ≤ p

end

/-! ### Ages -/

section

variable {Name : Type} [DecidableEq Name] {t : Texts} {link : Name} {msg : Nat}
  {es : List (Delivery Name)} {d : Delivery Name}

theorem age_concat : age link msg (es ++ [d]) = ageStep link msg (age link msg es) d := by
  rw [age, List.foldl_append]
  rfl

theorem age_eq_none (h : ∀ e ∈ es, e.link = link → e.msg ≠ msg) :
    age link msg es = none := by
  induction es using List.reverseRecOn with
  | nil => rfl
  | append_singleton es e ih =>
      rw [age_concat, ih fun e' he' => h e' (List.mem_append_left _ he'), ageStep]
      have hlast := h e (List.mem_append_right _ List.mem_cons_self)
      split_ifs with hlink hmsg
      · exact absurd hmsg (hlast hlink)
      · rfl
      · rfl

/-- The age of a message is the number of deliveries behind it. -/
theorem age_of_split {pre mid : List (Delivery Name)} {c : Delivery Name}
    (h : ∀ e ∈ mid, e.link = c.link → e.msg ≠ c.msg) :
    age c.link c.msg (pre ++ c :: mid) = some (mid.filter fun e => e.link = c.link).length := by
  induction mid using List.reverseRecOn with
  | nil =>
      rw [age_concat, ageStep, if_pos rfl, if_pos rfl]
      rfl
  | append_singleton mid e ih =>
      rw [← List.cons_append, ← List.append_assoc, age_concat,
        ih fun e' he' => h e' (List.mem_append_left _ he'), ageStep, List.filter_append,
        List.length_append]
      have hlast := h e (List.mem_append_right _ List.mem_cons_self)
      by_cases hlink : e.link = c.link
      · simp [hlink, hlast hlink]
      · simp [hlink]

omit [DecidableEq Name] in
theorem lastWith_concat (x : String) :
    lastWith t x (es ++ [d]) = if t.text d.msg = x then some d else lastWith t x es := by
  unfold lastWith
  by_cases hx : t.text d.msg = x
  · simp [List.filter_append, hx]
  · simp [List.filter_append, hx]

omit [DecidableEq Name] in
theorem lastWith_some {x : String} {c : Delivery Name} (h : lastWith t x es = some c) :
    c ∈ es ∧ t.text c.msg = x := by
  have hmem := List.mem_of_getLast? h
  simpa using List.mem_filter.1 hmem

omit [DecidableEq Name] in
theorem lastWith_ne_none {x : String} (hd : d ∈ es) (hx : t.text d.msg = x) :
    lastWith t x es ≠ none := by
  intro hnone
  rw [lastWith, List.getLast?_eq_none_iff, List.filter_eq_nil_iff] at hnone
  exact hnone d hd (by simpa using hx)

/-! ### The buffers -/

variable {cfg : Config} {s : Combiner Name}

/-- The links that have delivered have a buffer; the last message with a text is in the buffers of
the links that have delivered it, as long as it is not too old. -/
structure Tracks (t : Texts) (cfg : Config) (es : List (Delivery Name)) (s : Combiner Name) :
    Prop where
  fresh : ∀ link, link ∉ s.names → s.buffer link = .new cfg.bufferSize cfg.bufferSize_pos
  size : ∀ link, (s.buffer link).size = cfg.bufferSize
  recent : ∀ x, x ≠ "" → ∀ link p, p < cfg.bufferSize →
    ((s.buffer link).recent p = x ↔ ∃ c, lastWith t x es = some c ∧ age link c.msg es = some p)

theorem tracks_start : Tracks t cfg ([] : List (Delivery Name)) (start cfg) := by
  refine ⟨fun _ _ => rfl, fun _ => rfl, fun x hx link p _ => ?_⟩
  refine iff_of_false hx.symm ?_
  rintro ⟨c, hc, -⟩
  cases hc

theorem Tracks.contains_iff (h : Tracks t cfg es s) {x : String} (hx : x ≠ "") {link : Name} :
    (s.buffer link).contains x = true ↔
      ∃ c p, lastWith t x es = some c ∧ age link c.msg es = some p ∧ p < cfg.bufferSize := by
  rw [CircularBuffer.contains_iff, h.size]
  constructor
  · rintro ⟨p, hp, hrecent⟩
    obtain ⟨c, hc, hage⟩ := (h.recent x hx link p hp).1 hrecent
    exact ⟨c, p, hc, hage, hp⟩
  · rintro ⟨c, p, hc, hage, hp⟩
    exact ⟨p, hp, (h.recent x hx link p hp).2 ⟨c, hc, hage⟩⟩

/-- A new link comes with the buffer that it is tracked with. -/
theorem buffer_addLink (h : Tracks t cfg es s) : (addLink cfg link s).buffer = s.buffer := by
  unfold addLink
  split_ifs with hmem
  · rfl
  · rw [← h.fresh link hmem]
    exact Function.update_eq_self link s.buffer

theorem Tracks.not_contains (h : Tracks t cfg es s) {x : String} (hx : x ≠ "")
    (hlink : link ∉ s.names) : (s.buffer link).contains x = false := by
  rw [Bool.eq_false_iff]
  intro hc
  obtain ⟨p, -, hp⟩ := CircularBuffer.contains_iff.1 hc
  rw [h.fresh link hlink] at hp
  exact hx hp.symm

/-- A message is forwarded if its link has it already, or if no link has it. -/
theorem Tracks.forwards_iff (h : Tracks t cfg es s) :
    forwards cfg s (messageOf t d) = true ↔
      (s.buffer d.link).contains (t.text d.msg) = true ∨
        ∀ link, (s.buffer link).contains (t.text d.msg) = false := by
  have hbuffer : (addLink cfg d.link s).buffer = s.buffer := buffer_addLink h
  unfold forwards checkBuffers
  change (!(if ((addLink cfg d.link s).buffer d.link).contains (t.text d.msg) = true then _
    else _ : Bool × Combiner Name).1) = true ↔ _
  rw [hbuffer]
  split_ifs with hown
  · exact iff_of_true rfl (Or.inl hown)
  · simp only [Bool.not_eq_true', List.any_eq_false, decide_eq_true_eq]
    change (∀ name ∈ (addLink cfg d.link s).names,
      ¬(name ≠ d.link ∧ ((addLink cfg d.link s).buffer name).contains (t.text d.msg) = true)) ↔ _
    rw [hbuffer]
    constructor
    · intro hall
      refine Or.inr fun link => ?_
      by_cases hlink : link = d.link
      · rw [hlink]
        exact Bool.eq_false_iff.2 hown
      · by_cases hmem : link ∈ s.names
        · refine Bool.eq_false_iff.2 fun hc => ?_
          exact hall link (mem_addLink.2 (Or.inl hmem)) ⟨hlink, hc⟩
        · exact h.not_contains (t.text_ne _) hmem
    · rintro (hc | hall) name - ⟨-, hc'⟩
      · exact hown hc
      · rw [hall name] at hc'
        cases hc'

theorem Tracks.buffer_send (h : Tracks t cfg es s) :
    (sendMessage (messageOf t d) (addLink cfg d.link s)).buffer link =
      if (s.buffer d.link).contains (t.text d.msg) = true ∧ (link ∈ s.names ∨ link = d.link) then
        (s.buffer link).remove (t.text d.msg)
      else s.buffer link := by
  rw [buffer_sendMessage, buffer_addLink h]
  simp only [messageOf, mem_addLink]

theorem Tracks.size_send (h : Tracks t cfg es s) :
    ((sendMessage (messageOf t d) (addLink cfg d.link s)).buffer link).size = cfg.bufferSize := by
  rw [h.buffer_send]
  split_ifs
  · exact h.size link
  · exact h.size link

/-- The text is in the buffers as before, unless the link has it: then it is in none of them. -/
theorem Tracks.recent_send (h : Tracks t cfg es s) {x : String} (hx : x ≠ "") (p : Nat) :
    ((sendMessage (messageOf t d) (addLink cfg d.link s)).buffer link).recent p = x ↔
      (s.buffer link).recent p = x ∧
        (x = t.text d.msg → (s.buffer d.link).contains x = false) := by
  rw [h.buffer_send]
  split_ifs with hown
  · rw [CircularBuffer.recent_remove]
    split_ifs with heq
    · rw [heq]
      refine iff_of_false hx.symm ?_
      rintro ⟨rfl, hnot⟩
      exact Bool.eq_false_iff.1 (hnot rfl) hown.1
    · refine ⟨fun hp => ⟨hp, ?_⟩, fun hp => hp.1⟩
      rintro rfl
      exact absurd hp heq
  · refine ⟨fun hp => ⟨hp, ?_⟩, fun hp => hp.1⟩
    rintro rfl
    by_contra hc
    by_cases hmem : link ∈ s.names
    · exact hown ⟨eq_true_of_ne_false hc, Or.inl hmem⟩
    · rw [h.fresh link hmem] at hp
      exact hx hp.symm

/-- The ages after a delivery of another text. -/
theorem age_of_ne {c : Delivery Name} (hne : d.msg ≠ c.msg) (p : Nat) :
    age link c.msg (es ++ [d]) = some p ↔
      if link = d.link then ∃ q, p = q + 1 ∧ age link c.msg es = some q
      else age link c.msg es = some p := by
  rw [age_concat, ageStep]
  by_cases hlink : d.link = link
  · rw [if_pos hlink, if_neg hne, if_pos hlink.symm, Option.map_eq_some_iff]
    constructor
    · rintro ⟨q, hq, rfl⟩
      exact ⟨q, rfl, hq⟩
    · rintro ⟨q, rfl, hq⟩
      exact ⟨q, hq, rfl⟩
  · rw [if_neg hlink, if_neg fun heq => hlink heq.symm]

/-- The last message with the text of the delivery is the one delivered, if any link has it in its
buffer; and then the link that delivers it has not. -/
def Repeats (t : Texts) (cfg : Config) (es : List (Delivery Name)) (d : Delivery Name) : Prop :=
  age d.link d.msg es = none ∧ ∃ c, lastWith t (t.text d.msg) es = some c ∧ c.msg = d.msg ∧
    ∃ p < cfg.bufferSize, age c.link d.msg es = some p

/-- The message is new; the last one with its text is in the buffer of its link or in none. -/
def IsNew (t : Texts) (cfg : Config) (es : List (Delivery Name)) (d : Delivery Name) : Prop :=
  (∀ e ∈ es, e.msg ≠ d.msg) ∧ ∀ c, lastWith t (t.text d.msg) es = some c →
    (∃ p < cfg.bufferSize, age d.link c.msg es = some p) ∨
      ∀ link p, age link c.msg es = some p → cfg.bufferSize ≤ p

theorem Tracks.not_forwards (h : Tracks t cfg es s) (hd : Repeats t cfg es d) :
    forwards cfg s (messageOf t d) = false ∧
      (s.buffer d.link).contains (t.text d.msg) = false := by
  obtain ⟨hnone, c, hc, hmsg, p, hp, hage⟩ := hd
  have hx := t.text_ne d.msg
  have hown : (s.buffer d.link).contains (t.text d.msg) = false := by
    rw [Bool.eq_false_iff, Ne, h.contains_iff hx]
    rintro ⟨c', p', hc', hage', -⟩
    obtain rfl : c = c' := Option.some_inj.1 (hc.symm.trans hc')
    rw [hmsg, hnone] at hage'
    cases hage'
  refine ⟨Bool.eq_false_iff.2 fun hf => ?_, hown⟩
  rcases h.forwards_iff.1 hf with hc' | hall
  · rw [hown] at hc'
    cases hc'
  · have hother : (s.buffer c.link).contains (t.text d.msg) = true :=
      (h.contains_iff hx).2 ⟨c, p, hc, hmsg ▸ hage, hp⟩
    rw [hall c.link] at hother
    cases hother

theorem Tracks.forwards_new (h : Tracks t cfg es s) (hd : IsNew t cfg es d) :
    forwards cfg s (messageOf t d) = true := by
  have hx := t.text_ne d.msg
  rw [h.forwards_iff, h.contains_iff hx]
  cases hlast : lastWith t (t.text d.msg) es with
  | none =>
      refine Or.inr fun link => Bool.eq_false_iff.2 fun hc => ?_
      obtain ⟨c, p, hc', -⟩ := (h.contains_iff hx).1 hc
      rw [hlast] at hc'
      cases hc'
  | some c =>
      rcases hd.2 c hlast with ⟨p, hp, hage⟩ | hold
      · exact Or.inl ⟨c, p, rfl, hage, hp⟩
      · refine Or.inr fun link => Bool.eq_false_iff.2 fun hc => ?_
        obtain ⟨c', p, hc', hage, hp⟩ := (h.contains_iff hx).1 hc
        obtain rfl : c = c' := Option.some_inj.1 (hlast.symm.trans hc')
        exact absurd hp (Nat.not_lt_of_le (hold link p hage))

omit [DecidableEq Name] in
theorem lastWith_self : lastWith t (t.text d.msg) (es ++ [d]) = some d := by
  rw [lastWith_concat, if_pos rfl]

theorem buffer_onIvyMessage :
    (onIvyMessage cfg s (messageOf t d)).buffer link =
      if link = d.link then
        ((sendMessage (messageOf t d) (addLink cfg d.link s)).buffer d.link).add (t.text d.msg)
      else (sendMessage (messageOf t d) (addLink cfg d.link s)).buffer link := by
  split_ifs with hlink
  · rw [hlink]
    exact Function.update_self _ _ _
  · exact Function.update_of_ne hlink _ _

/-- The messages with the text of the delivery. -/
theorem Tracks.recent_same (h : Tracks t cfg es s) (hd : Repeats t cfg es d ∨ IsNew t cfg es d)
    {p : Nat} (hp : p < cfg.bufferSize) :
    ((onIvyMessage cfg s (messageOf t d)).buffer link).recent p = t.text d.msg ↔
      age link d.msg (es ++ [d]) = some p := by
  have hx := t.text_ne d.msg
  rw [buffer_onIvyMessage, age_concat, ageStep]
  by_cases hlink : link = d.link
  · subst hlink
    rw [if_pos rfl, if_pos rfl, if_pos rfl]
    cases p with
    | zero => exact iff_of_true CircularBuffer.recent_add_zero rfl
    | succ q =>
        rw [CircularBuffer.recent_add_succ (by rw [h.size_send]; exact hp), h.recent_send hx]
        refine iff_of_false ?_ (by simp)
        rintro ⟨hrecent, hown⟩
        refine Bool.eq_false_iff.1 (hown rfl) (CircularBuffer.contains_iff.2 ⟨q, ?_, hrecent⟩)
        rw [h.size]
        exact Nat.lt_of_succ_lt hp
  · rw [if_neg hlink, if_neg fun heq => hlink heq.symm, h.recent_send hx, h.recent _ hx link p hp]
    rcases hd with hd | hd
    · obtain ⟨-, hown⟩ := h.not_forwards hd
      obtain ⟨-, c, hc, hmsg, -⟩ := hd
      constructor
      · rintro ⟨⟨c', hc', hage⟩, -⟩
        obtain rfl : c = c' := Option.some_inj.1 (hc.symm.trans hc')
        rwa [hmsg] at hage
      · intro hage
        exact ⟨⟨c, hc, hmsg ▸ hage⟩, fun _ => hown⟩
    · rw [age_eq_none fun e he _ => hd.1 e he]
      refine iff_of_false ?_ (by simp)
      rintro ⟨⟨c, hc, hage⟩, hown⟩
      rcases hd.2 c hc with ⟨q, hq, hage'⟩ | hold
      · exact Bool.eq_false_iff.1 (hown rfl) ((h.contains_iff hx).2 ⟨c, q, hc, hage', hq⟩)
      · exact absurd hp (Nat.not_lt_of_le (hold link p hage))

/-- The messages with another text. -/
theorem Tracks.recent_other (h : Tracks t cfg es s) {x : String} (hx : x ≠ "")
    (hne : x ≠ t.text d.msg) {p : Nat} (hp : p < cfg.bufferSize) :
    ((onIvyMessage cfg s (messageOf t d)).buffer link).recent p = x ↔
      ∃ c, lastWith t x es = some c ∧ age link c.msg (es ++ [d]) = some p := by
  have hage : ∀ c, lastWith t x es = some c →
      (age link c.msg (es ++ [d]) = some p ↔
        if link = d.link then ∃ q, p = q + 1 ∧ age link c.msg es = some q
        else age link c.msg es = some p) := by
    intro c hc
    refine age_of_ne (fun hmsg => hne ?_) p
    rw [hmsg, (lastWith_some hc).2]
  rw [buffer_onIvyMessage]
  by_cases hlink : link = d.link
  · subst hlink
    rw [if_pos rfl]
    cases p with
    | zero =>
        rw [CircularBuffer.recent_add_zero]
        refine iff_of_false hne.symm ?_
        rintro ⟨c, hc, hzero⟩
        rw [hage c hc, if_pos rfl] at hzero
        obtain ⟨q, hq, -⟩ := hzero
        cases hq
    | succ q =>
        rw [CircularBuffer.recent_add_succ (by rw [h.size_send]; exact hp), h.recent_send hx,
          h.recent x hx d.link q (Nat.lt_of_succ_lt hp)]
        constructor
        · rintro ⟨⟨c, hc, hq⟩, -⟩
          refine ⟨c, hc, (hage c hc).2 ?_⟩
          rw [if_pos rfl]
          exact ⟨q, rfl, hq⟩
        · rintro ⟨c, hc, hq⟩
          rw [hage c hc, if_pos rfl] at hq
          obtain ⟨q', hq', hq⟩ := hq
          cases hq'
          exact ⟨⟨c, hc, hq⟩, fun heq => absurd heq hne⟩
  · rw [if_neg hlink, h.recent_send hx, h.recent x hx link p hp]
    constructor
    · rintro ⟨⟨c, hc, hp'⟩, -⟩
      refine ⟨c, hc, (hage c hc).2 ?_⟩
      rwa [if_neg hlink]
    · rintro ⟨c, hc, hp'⟩
      rw [hage c hc, if_neg hlink] at hp'
      exact ⟨⟨c, hc, hp'⟩, fun heq => absurd heq hne⟩

theorem Tracks.step (h : Tracks t cfg es s) (hd : Repeats t cfg es d ∨ IsNew t cfg es d) :
    Tracks t cfg (es ++ [d]) (onIvyMessage cfg s (messageOf t d)) where
  fresh := by
    intro link hlink
    obtain ⟨hmem, hne⟩ : link ∉ s.names ∧ link ≠ d.link :=
      not_or.1 fun hor => hlink (names_onIvyMessage.2 hor)
    rw [buffer_onIvyMessage, if_neg hne, h.buffer_send, if_neg fun hown => hown.2.elim hmem hne]
    exact h.fresh link hmem
  size := by
    intro link
    rw [buffer_onIvyMessage]
    split_ifs
    · exact h.size_send
    · exact h.size_send
  recent := by
    intro x hx link p hp
    by_cases hne : x = t.text d.msg
    · subst hne
      rw [h.recent_same hd hp, lastWith_self]
      simp
    · rw [h.recent_other hx hne hp, lastWith_concat, if_neg fun heq => hne heq.symm]

/-! ### Runs -/

/-- Of the messages with one text, only the last that was delivered is delivered again. -/
def Finished (t : Texts) (pre post : List (Delivery Name)) : Prop :=
  ∀ e ∈ pre, ∀ c, lastWith t (t.text e.msg) pre = some c → e.msg ≠ c.msg →
    ∀ e' ∈ post, e'.msg ≠ e.msg

variable {pre post : List (Delivery Name)}

omit [DecidableEq Name] in
/-- The last message with the text of one that is still delivered is that message. -/
theorem Finished.lastWith_eq (h : Finished t pre (d :: post)) {e : Delivery Name} (he : e ∈ pre)
    (hmsg : e.msg = d.msg) : ∃ c, lastWith t (t.text d.msg) pre = some c ∧ c.msg = d.msg := by
  obtain ⟨c, hc⟩ := Option.ne_none_iff_exists'.1 (lastWith_ne_none he (congrArg t.text hmsg))
  refine ⟨c, hc, ?_⟩
  by_contra hne
  refine h e he c (hmsg ▸ hc) ?_ d List.mem_cons_self hmsg.symm
  rintro heq
  exact hne (heq.symm.trans hmsg)

omit [DecidableEq Name] in
theorem Finished.step (h : Finished t pre (d :: post))
    (hnew : (∀ e ∈ pre, e.msg ≠ d.msg) →
      ∀ e ∈ pre, t.text e.msg = t.text d.msg → ∀ e' ∈ post, e'.msg ≠ e.msg) :
    Finished t (pre ++ [d]) post := by
  intro e he c hc hne e' he'
  rw [lastWith_concat] at hc
  split_ifs at hc with htext
  · obtain rfl : d = c := Option.some_inj.1 hc
    have he : e ∈ pre := by
      rcases List.mem_append.1 he with he | he
      · exact he
      · rw [List.mem_singleton.1 he] at hne
        exact absurd rfl hne
    by_cases hfirst : ∀ e ∈ pre, e.msg ≠ d.msg
    · exact hnew hfirst e he htext.symm e' he'
    · push Not at hfirst
      obtain ⟨e₀, he₀, hmsg⟩ := hfirst
      obtain ⟨c, hc, hcmsg⟩ := h.lastWith_eq he₀ hmsg
      refine h e he c (htext ▸ hc) ?_ e' (List.mem_cons_of_mem d he')
      rw [hcmsg]
      exact hne
  · have he : e ∈ pre := by
      rcases List.mem_append.1 he with he | he
      · exact he
      · rw [List.mem_singleton.1 he] at htext
        exact absurd rfl htext
    exact h e he c hc hne e' (List.mem_cons_of_mem d he')

theorem repeats_or_isNew (hin : InOrder (pre ++ d :: post))
    (hwithin : WithinBuffer cfg.bufferSize (pre ++ d :: post))
    (hsep : Separated t cfg.bufferSize (pre ++ d :: post)) (hfin : Finished t pre (d :: post)) :
    Repeats t cfg pre d ∨ IsNew t cfg pre d := by
  by_cases hfirst : ∀ e ∈ pre, e.msg ≠ d.msg
  · exact Or.inr ⟨hfirst, (hsep pre d post rfl hfirst).2⟩
  refine Or.inl ⟨?_, ?_⟩
  · refine age_eq_none fun e he hlink => ?_
    have hlt := (List.pairwise_append.1 hin).2.2 e he d List.mem_cons_self hlink
    omega
  · push Not at hfirst
    obtain ⟨e, he, hmsg⟩ := hfirst
    obtain ⟨c, hc, hcmsg⟩ := hfin.lastWith_eq he hmsg
    refine ⟨c, hc, hcmsg, ?_⟩
    obtain ⟨before, mid, rfl⟩ := List.append_of_mem (lastWith_some hc).1
    refine ⟨_, hwithin before c mid d post (by simp) hcmsg c.link, ?_⟩
    rw [← hcmsg]
    refine age_of_split fun e' he' hlink => ?_
    have hpre := (List.pairwise_append.1 hin).1
    have hlt := List.rel_of_pairwise_cons (List.pairwise_append.1 hpre).2.1 he' hlink.symm
    omega

/-- What the combiner has done when `pre` has been delivered and `post` is still to come. -/
structure Progress (t : Texts) (cfg : Config) (pre post : List (Delivery Name))
    (s : Combiner Name × List Nat) : Prop where
  tracks : Tracks t cfg pre s.1
  finished : Finished t pre post
  count : ∀ n, s.2.count n = if ∃ d ∈ pre, d.msg = n then 1 else 0
  sent : s.1.sent = s.2.map t.text

theorem Progress.step {s : Combiner Name × List Nat} (h : Progress t cfg pre (d :: post) s)
    (hin : InOrder (pre ++ d :: post)) (hwithin : WithinBuffer cfg.bufferSize (pre ++ d :: post))
    (hsep : Separated t cfg.bufferSize (pre ++ d :: post)) :
    Progress t cfg (pre ++ [d]) post (deliver t cfg s d) := by
  have hd := repeats_or_isNew hin hwithin hsep h.finished
  refine ⟨h.tracks.step hd, h.finished.step fun hfirst => (hsep pre d post rfl hfirst).1, ?_, ?_⟩
  · intro n
    have hmem : (∃ e ∈ pre ++ [d], e.msg = n) ↔ (∃ e ∈ pre, e.msg = n) ∨ d.msg = n := by
      simp [or_and_right, exists_or]
    simp only [deliver, hmem]
    rcases hd with hd | hd
    · rw [(h.tracks.not_forwards hd).1, if_neg Bool.false_ne_true, h.count]
      obtain ⟨-, c, hc, hmsg, -⟩ := hd
      have hc : ∃ e ∈ pre, e.msg = d.msg := ⟨c, (lastWith_some hc).1, hmsg⟩
      by_cases hn : d.msg = n
      · rw [if_pos (hn ▸ hc), if_pos (Or.inr hn)]
      · simp only [hn, or_false]
    · rw [h.tracks.forwards_new hd, if_pos rfl, List.count_append, h.count]
      by_cases hn : d.msg = n
      · subst hn
        have hnot : ¬∃ e ∈ pre, e.msg = d.msg := by
          rintro ⟨e, he, hmsg⟩
          exact hd.1 e he hmsg
        simp [hnot]
      · simp [hn]
  · simp only [deliver, sent_onIvyMessage, h.sent]
    split_ifs
    · rw [List.map_append]
      rfl
    · rfl

theorem progress (es pre post : List (Delivery Name)) (hes : es = pre ++ post) (hin : InOrder es)
    (hwithin : WithinBuffer cfg.bufferSize es) (hsep : Separated t cfg.bufferSize es) :
    Progress t cfg pre post (deliverAll t cfg pre) := by
  induction pre using List.reverseRecOn generalizing post with
  | nil =>
      refine ⟨tracks_start, ?_, fun n => by simp [deliverAll, run], rfl⟩
      rintro e he
      cases he
  | append_singleton pre d ih =>
      rw [List.append_assoc] at hes
      subst hes
      rw [deliverAll, run_append]
      exact (ih (d :: post) rfl).step hin hwithin hsep

/-- Every message that some link receives is sent on once. -/
theorem forwarded_once (cfg : Config) (es : List (Delivery Name)) (hin : InOrder es)
    (hwithin : WithinBuffer cfg.bufferSize es) (hsep : Separated t cfg.bufferSize es) :
    ForwardedOnce t cfg es := by
  have h := @progress _ _ t cfg es es [] (List.append_nil es).symm hin hwithin hsep
  exact ⟨h.count, h.sent⟩

omit [DecidableEq Name] in
theorem withinBuffer_of_length [DecidableEq Name] {size : Nat} (h : es.length ≤ size + 1) :
    WithinBuffer size es := by
  rintro pre d mid e post rfl - link
  simp only [List.length_append, List.length_cons] at h
  refine Nat.lt_of_le_of_lt (List.length_filter_le _ _) ?_
  omega

end

/-- Three messages of which the first and the last are the same. -/
def repeated : Texts where
  text := fun n => if n = 1 then "1 ALIVE 22" else "1 PONG"
  text_ne := by
    intro n
    split_ifs <;> decide

def cfg10 : Config := ⟨10, by decide⟩

theorem forwarded_once_of_two_links :
    ForwardedOnce repeated cfg10
      [(⟨0, 0⟩ : Delivery Nat), ⟨1, 0⟩, ⟨0, 1⟩, ⟨0, 2⟩, ⟨1, 2⟩] := by
  refine forwarded_once _ _ ?_ (withinBuffer_of_length (by decide)) ?_
  · unfold InOrder
    decide
  · rintro (_ | ⟨a, _ | ⟨b, _ | ⟨c, _ | ⟨e, _ | ⟨f, pre⟩⟩⟩⟩⟩) d post h hfirst
    · refine ⟨?_, ?_⟩
      · rintro e ⟨⟩
      · rintro c ⟨⟩
    · cases h
      exact absurd rfl (hfirst ⟨0, 0⟩ (by decide))
    · cases h
      refine ⟨by decide, ?_⟩
      intro c hc
      have hnone : none = some c := hc
      cases hnone
    · cases h
      refine ⟨by decide, ?_⟩
      intro c hc
      have hlast : some ⟨1, 0⟩ = some c := hc
      cases hlast
      exact Or.inl ⟨1, by decide, by decide⟩
    · cases h
      exact absurd rfl (hfirst ⟨0, 2⟩ (by decide))
    · simp at h

/-- The first message comes on one link only and the last one on the other. -/
theorem twin_dropped :
    InOrder [(⟨0, 0⟩ : Delivery Nat), ⟨1, 2⟩] ∧
      WithinBuffer cfg10.bufferSize [(⟨0, 0⟩ : Delivery Nat), ⟨1, 2⟩] ∧
      ¬ForwardedOnce repeated cfg10 [(⟨0, 0⟩ : Delivery Nat), ⟨1, 2⟩] := by
  refine ⟨?_, withinBuffer_of_length (by decide), ?_⟩
  · unfold InOrder
    decide
  · intro h
    exact absurd (h.1 2) (by decide +kernel)

end Paparazzi.Link.ExactlyOnce
