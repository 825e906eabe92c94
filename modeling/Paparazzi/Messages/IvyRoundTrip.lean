import Mathlib.Data.List.Nodup
import Paparazzi.Messages.IvyText

/-!
Which messages can be read from their texts.
-/

namespace Paparazzi.Messages.IvyText

open Paparazzi.Library
open Paparazzi.Library.MapM
open Paparazzi.Library.StrSplit
open Paparazzi.Messages.Codec (ScalarType)

section

variable {F : Type} (ft : FloatText F)

/-! ### Scalars -/

theorem clean_ofInt (x : Int) : IntText.ofInt x ≠ [] ∧
    ∀ c ∈ IntText.ofInt x, isSpace c = false ∧ c ≠ separator := by
  refine ⟨IntText.ofInt_ne_nil x, fun c hc => ?_⟩
  rcases IntText.isDigit_or_minus_of_mem hc with hdigit | rfl
  · refine ⟨?_, ?_⟩
    · rw [isSpace, Bool.or_eq_false_iff, beq_eq_false_iff_ne, beq_eq_false_iff_ne]
      constructor
      · rintro rfl
        exact absurd hdigit (by decide)
      · rintro rfl
        exact absurd hdigit (by decide)
    · rintro rfl
      exact absurd hdigit (by decide)
  · decide

/-- The text of a scalar has no spaces and commas, apart from strings. -/
theorem clean_stringOfScalar {v : Scalar F} (h : ∀ s, v ≠ .string s) :
    stringOfScalar ft v ≠ [] ∧
      ∀ c ∈ stringOfScalar ft v, isSpace c = false ∧ c ≠ separator := by
  cases v with
  | int x => exact clean_ofInt x
  | int32 x => exact clean_ofInt _
  | float x => exact ⟨ft.toText_ne_nil x, ft.toText_clean x⟩
  | string s => exact absurd rfl (h s)

/-- What is asked of floats matters to floats only. -/
theorem scalarFits_of_ne_float {exact exact' : F → Prop} {t : ElementType} {v : Scalar F}
    (h : ScalarFits exact t v) (hv : ∀ x, v ≠ .float x) : ScalarFits exact' t v := by
  cases v with
  | float x => exact absurd rfl (hv x)
  | _ => cases t <;> exact h

/-- A scalar that fits is read from its text. -/
theorem scalarOfText_stringOfScalar {t : ElementType} {v : Scalar F}
    (h : ScalarFits (ReadBack ft) t v) : scalarOfText ft t (stringOfScalar ft v) = some v := by
  cases v with
  | int x =>
      cases t with
      | string => exact h.elim
      | number t =>
          have hx : InRange t x := h
          have hread : IntText.toInt 63 (IntText.ofInt x) = some x := by
            refine IntText.toInt_ofInt ?_ ?_
            · cases t <;> simp only [InRange] at hx <;> omega
            · cases t <;> simp only [InRange] at hx <;> omega
          cases t <;> first
            | exact hx.elim
            | rw [stringOfScalar, scalarOfText, hread, Option.map_some]
  | int32 x =>
      cases t with
      | string => exact h.elim
      | number t =>
          have hread : IntText.toInt 32 (IntText.ofInt x.toInt) = some x.toInt :=
            IntText.toInt_ofInt (Int32.le_toInt x) (Int32.toInt_lt x)
          cases t <;> first
            | exact h.elim
            | rw [stringOfScalar, scalarOfText, hread, Option.map_some, Int32.ofInt_toInt]
  | float x =>
      cases t with
      | string => exact h.elim
      | number t =>
          have hread : ft.ofText (ft.toText x) = some x := h.2
          cases t <;> first
            | exact h.1.elim
            | rw [stringOfScalar, scalarOfText, hread, Option.map_some]
  | string s =>
      cases t with
      | number t => exact h.elim
      | string => rfl

/-- Only strings are read as strings. -/
theorem scalarOfText_string {t : ElementType} {v s : Text} :
    scalarOfText ft t v = some (.string s) ↔ t = .string ∧ v = s := by
  cases t with
  | number t => cases t <;> simp [scalarOfText]
  | string => simp [scalarOfText]

/-! ### Fields -/

/-- The text of a field is one word, which is read as its value. -/
def Legible (f : Field) (v : Value F) : Prop :=
  ∃ w, words isSpace (formattedStringOfValue ft f.fformat v) = [w] ∧ value ft f.type w = some v

/-- The text of an array that was read from one word has no spaces. -/
theorem noSpace_array {t : ElementType} {vs : List (Scalar F)} {w : Text}
    (hw : NoSpace w) (h : value ft (.array t) w = some (.array vs)) :
    NoSpace (stringOfValue ft (.array vs)) := by
  obtain ⟨vs', hvs, heq⟩ := Option.map_eq_some_iff.mp h
  cases heq
  have hall := forall₂_of_mapM hvs
  intro c hc
  rcases mem_intercalate hc with rfl | ⟨text, htext, hc⟩
  · decide
  · obtain ⟨v, hv, rfl⟩ := List.mem_map.mp htext
    obtain ⟨k, hk⟩ := List.getElem?_of_mem hv
    obtain ⟨piece, hpiece, hread⟩ := getElem?_of_forall₂ hall hk
    by_cases hstring : ∃ s, v = .string s
    · obtain ⟨s, rfl⟩ := hstring
      obtain ⟨-, rfl⟩ := (scalarOfText_string ft).mp hread
      exact hw c (mem_of_mem_split (List.mem_of_getElem? hpiece) hc)
    · exact ((clean_stringOfScalar ft fun s hs => hstring ⟨s, hs⟩).2 c hc).1

/-- A field that is read from one word is printed as one word at most. -/
theorem length_words_le_one_of_value {f : Field} {v : Value F} {w : Text} (hfits : Fits ft f v)
    (hw : NoSpace w) (h : value ft f.type w = some v) :
    (words isSpace (formattedStringOfValue ft f.fformat v)).length ≤ 1 := by
  cases v with
  | array vs =>
      cases hty : f.type with
      | scalar t =>
          rw [hty] at h
          obtain ⟨x, -, hx⟩ := Option.map_eq_some_iff.mp h
          cases hx
      | array t =>
          rw [hty] at h
          exact length_words_le_one (noSpace_array ft hw h)
  | scalar v =>
      cases v with
      | int x =>
          refine length_words_le_one fun c hc => ?_
          exact ((clean_stringOfScalar ft (v := .int x) (by simp)).2 c hc).1
      | int32 x =>
          refine length_words_le_one fun c hc => ?_
          exact ((clean_stringOfScalar ft (v := .int32 x) (by simp)).2 c hc).1
      | float x =>
          cases hty : f.type with
          | array t =>
              rw [Fits, hty] at hfits
              exact hfits.elim
          | scalar t =>
              rw [Fits, hty] at hfits
              cases t with
              | string => exact hfits.elim
              | number t =>
                  obtain ⟨w, hwords, -⟩ := hfits.2
                  rw [formattedStringOfValue, hwords]
                  exact Nat.le_refl 1
      | string s =>
          cases hty : f.type with
          | array t =>
              rw [Fits, hty] at hfits
              exact hfits.elim
          | scalar t =>
              rw [hty] at h
              obtain ⟨x, hx, heq⟩ := Option.map_eq_some_iff.mp h
              cases heq
              obtain ⟨-, rfl⟩ := (scalarOfText_string ft).mp hx
              exact length_words_le_one hw

/-! ### What can be read -/

theorem noSpace_of_uncut {v : Scalar F}
    (h : IsStringWith (fun s => NoSpace s ∧ separator ∉ s) v) :
    NoSpace (stringOfScalar ft v) ∧ separator ∉ stringOfScalar ft v := by
  by_cases hstring : ∃ s, v = .string s
  · obtain ⟨s, rfl⟩ := hstring
    exact h
  · have hclean := (clean_stringOfScalar ft fun s hs => hstring ⟨s, hs⟩).2
    exact ⟨fun c hc => (hclean c hc).1, fun hmem => (hclean _ hmem).2 rfl⟩

theorem ne_nil_of_uncut {v : Scalar F} (h : IsStringWith (· ≠ []) v) : stringOfScalar ft v ≠ [] := by
  by_cases hstring : ∃ s, v = .string s
  · obtain ⟨s, rfl⟩ := hstring
    exact h
  · exact (clean_stringOfScalar ft fun s hs => hstring ⟨s, hs⟩).1

/-- The texts of an array that is not cut can be told apart. -/
theorem separable_of_uncut {vs : List (Scalar F)} (h : Uncut (.array vs)) :
    Separable separator (vs.map (stringOfScalar ft)) := by
  obtain ⟨hne, hclean, hhead, hlast⟩ := h
  refine ⟨by simpa using hne, ?_, ?_, ?_⟩
  · intro text htext
    obtain ⟨v, hv, rfl⟩ := List.mem_map.mp htext
    exact (noSpace_of_uncut ft (hclean v hv)).2
  · rw [List.head?_map]
    intro heq
    obtain ⟨v, hv, htext⟩ := Option.map_eq_some_iff.mp heq
    exact ne_nil_of_uncut ft (hhead v hv) htext
  · rw [List.getLast?_map]
    intro heq
    obtain ⟨v, hv, htext⟩ := Option.map_eq_some_iff.mp heq
    exact ne_nil_of_uncut ft (hlast v hv) htext

theorem legible_array {f : Field} {t : ElementType} {vs : List (Scalar F)} (hty : f.type = .array t)
    (hfits : ∀ v ∈ vs, ScalarFits (ReadBack ft) t v) (h : Uncut (.array vs)) :
    Legible ft f (.array vs) := by
  have hseparable := separable_of_uncut ft h
  have hnoSpace : NoSpace (stringOfValue ft (.array vs)) := by
    intro c hc
    rcases mem_intercalate hc with rfl | ⟨text, htext, hc⟩
    · decide
    · obtain ⟨v, hv, rfl⟩ := List.mem_map.mp htext
      exact (noSpace_of_uncut ft (h.2.1 v hv)).1 c hc
  have hsplit := split_intercalate hseparable
  have hne : stringOfValue ft (.array vs) ≠ [] := by
    intro heq
    rw [stringOfValue] at heq
    rw [heq] at hsplit
    exact hseparable.ne_nil hsplit.symm
  refine ⟨stringOfValue ft (.array vs), words_of_forall hne hnoSpace, ?_⟩
  have hread : (vs.map (stringOfScalar ft)).mapM (scalarOfText ft t) = some vs := by
    rw [List.mapM_map, mapM_eq_map (g := id) fun v hv => ?_, List.map_id]
    exact scalarOfText_stringOfScalar ft (hfits v hv)
  rw [hty, value, stringOfValue, hsplit, hread, Option.map_some]

/-- An array whose text can be read is not cut. -/
theorem uncut_of_legible_array {f : Field} {t : ElementType} {vs : List (Scalar F)}
    (hty : f.type = .array t) (hfits : ∀ v ∈ vs, ScalarFits (ReadBack ft) t v)
    (h : Legible ft f (.array vs)) : Uncut (.array vs) := by
  obtain ⟨w, hwords, hvalue⟩ := h
  obtain ⟨hwne, hwnoSpace⟩ := of_mem_words (hwords ▸ List.mem_singleton_self w)
  rw [hty] at hvalue
  have hnoSpace := noSpace_array ft hwnoSpace hvalue
  have hne : stringOfValue ft (.array vs) ≠ [] := by
    intro heq
    rw [formattedStringOfValue, heq, words_nil] at hwords
    · cases hwords
    · simp
  have hw : w = stringOfValue ft (.array vs) := by
    have hself := words_of_forall hne hnoSpace
    rw [formattedStringOfValue] at hwords
    · exact List.singleton_inj.mp (hwords.symm.trans hself)
    · simp
  have hvs : vs ≠ [] := by
    rintro rfl
    exact hne rfl
  obtain ⟨vs', hmapM, heq⟩ := Option.map_eq_some_iff.mp hvalue
  cases heq
  cases t with
  | number t =>
      have hnumber : ∀ P, ∀ v ∈ vs, IsStringWith P v := by
        intro P v hv
        have hv := hfits v hv
        cases v with
        | string s => exact hv.elim
        | _ => trivial
      exact ⟨hvs, hnumber _, fun v hv => hnumber _ v (List.mem_of_mem_head? hv),
        fun v hv => hnumber _ v (List.mem_of_getLast? hv)⟩
  | string =>
      have hpieces : split separator w = vs.map (stringOfScalar ft) := by
        have hmap := eq_map_of_mapM (g := Scalar.string) (fun a b hab => by
          cases hab
          rfl) hmapM
        rw [hmap, List.map_map]
        exact (List.map_id _).symm
      rw [hw, stringOfValue] at hpieces
      have hseparable := separable_of_split (by simpa using hvs) hpieces
      refine ⟨hvs, ?_, ?_, ?_⟩
      · intro v hv
        cases v with
        | string s =>
            have hmem : s ∈ vs.map (stringOfScalar ft) := List.mem_map.mpr ⟨_, hv, rfl⟩
            exact ⟨fun c hc => hnoSpace c (mem_intercalate_of_mem hmem hc),
              hseparable.notMem s hmem⟩
        | _ => trivial
      · intro v hv
        cases v with
        | string s =>
            rintro rfl
            exact hseparable.head (by rw [List.head?_map, hv]; rfl)
        | _ => trivial
      · intro v hv
        cases v with
        | string s =>
            rintro rfl
            exact hseparable.last (by rw [List.getLast?_map, hv]; rfl)
        | _ => trivial

/-- The fields that can be read are those that are not cut. -/
theorem legible_iff_uncut {f : Field} {v : Value F} (hfits : Fits ft f v) :
    Legible ft f v ↔ Uncut v := by
  cases v with
  | array vs =>
      cases hty : f.type with
      | scalar t =>
          rw [Fits, hty] at hfits
          exact hfits.elim
      | array t =>
          rw [Fits, hty] at hfits
          exact ⟨uncut_of_legible_array ft hty hfits, legible_array ft hty hfits⟩
  | scalar v =>
      cases hty : f.type with
      | array t =>
          rw [Fits, hty] at hfits
          exact hfits.elim
      | scalar t =>
          rw [Fits, hty] at hfits
          have hread : ∀ {v : Scalar F}, ScalarFits (ReadBack ft) t v → (∀ s, v ≠ .string s) →
              value ft (.scalar t) (stringOfScalar ft v) = some (.scalar v) ∧
                words isSpace (stringOfScalar ft v) = [stringOfScalar ft v] := by
            intro v hv hstring
            obtain ⟨hne, hclean⟩ := clean_stringOfScalar ft hstring
            refine ⟨?_, words_of_forall hne fun c hc => (hclean c hc).1⟩
            rw [value, scalarOfText_stringOfScalar ft hv, Option.map_some]
          cases v with
          | int x =>
              obtain ⟨hvalue, hwords⟩ := hread (v := .int x)
                (scalarFits_of_ne_float hfits (by simp)) (by simp)
              exact iff_of_true ⟨_, hwords, by rw [hty, hvalue]⟩ trivial
          | int32 x =>
              obtain ⟨hvalue, hwords⟩ := hread (v := .int32 x)
                (scalarFits_of_ne_float hfits (by simp)) (by simp)
              exact iff_of_true ⟨_, hwords, by rw [hty, hvalue]⟩ trivial
          | float x =>
              cases t with
              | string => exact hfits.elim
              | number t =>
                  obtain ⟨hfloat, w, hwords, hofText⟩ := hfits
                  refine iff_of_true ⟨w, hwords, ?_⟩ trivial
                  cases t <;> first
                    | exact hfloat.elim
                    | rw [hty, value, scalarOfText, hofText, Option.map_some, Option.map_some]
          | string s =>
              constructor
              · rintro ⟨w, hwords, hvalue⟩
                rw [hty] at hvalue
                obtain ⟨x, hx, heq⟩ := Option.map_eq_some_iff.mp hvalue
                cases heq
                obtain ⟨-, rfl⟩ := (scalarOfText_string ft).mp hx
                exact of_mem_words (hwords ▸ List.mem_singleton_self _)
              · rintro ⟨hne, hnoSpace⟩
                refine ⟨s, words_of_forall hne hnoSpace, ?_⟩
                cases t with
                | number t => exact hfits.elim
                | string => rw [hty, value, scalarOfText, Option.map_some]

/-! ### Messages -/

/-- The value of a field. -/
def valueOf (values : Values F) (f : Field) : Value F :=
  (values.lookup f.name).getD (.array [])

theorem lookup_eq {msg : Message} {values : Values F} (h : Assigned ft msg values) {f : Field}
    (hf : f ∈ msg.fields) :
    values.lookup f.name = some (valueOf values f) ∧ Fits ft f (valueOf values f) := by
  obtain ⟨v, hv, hfits⟩ := h.fits f hf
  have hvalue : valueOf values f = v := by rw [valueOf, hv, Option.getD_some]
  rw [hvalue]
  exact ⟨hv, hfits⟩

def fieldText (values : Values F) (f : Field) : Text :=
  formattedStringOfValue ft f.fformat (valueOf values f)

theorem stringOfMessage_eq {msg : Message} {values : Values F} (h : Assigned ft msg values)
    (float42 : F) : stringOfMessage ft float42 msg values =
      some ([' '].intercalate (msg.name :: msg.fields.map (fieldText ft values))) := by
  have hknown : (values.all fun v => msg.fields.any fun f => f.name = v.1) = true := by
    rw [List.all_eq_true]
    intro v hv
    obtain ⟨f, hf, hname⟩ := h.known v hv
    rw [List.any_eq_true]
    exact ⟨f, hf, decide_eq_true hname⟩
  rw [stringOfMessage, if_pos hknown, mapM_eq_map (g := fieldText ft values), Option.map_some]
  intro f hf
  rw [(lookup_eq ft h hf).1, Option.some_or, Option.map_some, fieldText]

theorem fieldValues_eq {msg : Message} {values : Values F} (h : Assigned ft msg values) :
    fieldValues msg values = msg.fields.map fun f => (f.name, valueOf values f) := by
  rw [fieldValues, ← List.filterMap_eq_map]
  refine List.filterMap_congr fun f hf => ?_
  rw [(lookup_eq ft h hf).1]
  rfl

theorem readFields_iff (values : Values F) (fields : List Field) (args : List Text) :
    readFields ft fields args = some (fields.map fun f => (f.name, valueOf values f)) ↔
      List.Forall₂ (fun f w => value ft f.type w = some (valueOf values f)) fields args := by
  induction fields generalizing args with
  | nil =>
      cases args with
      | nil => exact iff_of_true rfl .nil
      | cons w args =>
          refine iff_of_false (fun h => by cases h) ?_
          rintro ⟨⟩
  | cons f fields ih =>
      cases args with
      | nil =>
          refine iff_of_false (fun h => by cases h) ?_
          rintro ⟨⟩
      | cons w args =>
          rw [List.forall₂_cons, ← ih]
          constructor
          · intro h
            obtain ⟨x, hx, h⟩ := Option.bind_eq_some_iff.mp h
            obtain ⟨rest, hrest, heq⟩ := Option.map_eq_some_iff.mp h
            obtain ⟨hhead, htail⟩ := List.cons_eq_cons.mp heq
            rw [hx, hrest, htail, (Prod.mk.inj hhead).2]
            exact ⟨rfl, rfl⟩
          · rintro ⟨hhead, htail⟩
            rw [readFields, hhead, Option.bind_some, htail]
            rfl

/-- The name of a message finds it again, and no other name does. -/
theorem messageOfName_inj {table : MessageTable} {name : Text} {id : Nat} {msg msg' : Message}
    (h : messageOfName table msg.name = some (id, msg))
    (h' : messageOfName table name = some (id, msg')) : msg' = msg ∧ name = msg.name := by
  have hmem := List.mem_reverse.mp (List.mem_of_find?_eq_some h)
  have hmem' := List.mem_reverse.mp (List.mem_of_find?_eq_some h')
  have hname := List.find?_some h'
  have heq := List.inj_on_of_nodup_map table.nodup hmem' hmem rfl
  obtain rfl := (Prod.mk.inj heq).2
  exact ⟨rfl, (of_decide_eq_true hname).symm⟩

theorem flatMap_words_eq (values : Values F) {fields : List Field} {args : List Text}
    (h : List.Forall₂ (fun f w => words isSpace (fieldText ft values f) = [w] ∧
      value ft f.type w = some (valueOf values f)) fields args) :
    (fields.map (fieldText ft values)).flatMap (words isSpace) = args := by
  induction h with
  | nil => rfl
  | cons hw _ ih => rw [List.map_cons, List.flatMap_cons, hw.1, ih, List.singleton_append]

/-- A message can be read from its text exactly when its name and its fields can. -/
theorem roundTrip_iff_legible {table : MessageTable} {id : Nat} {msg : Message}
    {values : Values F} (hfound : messageOfName table msg.name = some (id, msg))
    (h : Assigned ft msg values) (float42 : F) :
    RoundTrip ft table float42 id msg values ↔
      words isSpace msg.name = [msg.name] ∧
        ∀ f ∈ msg.fields, Legible ft f (valueOf values f) := by
  have hwords : words isSpace ([' '].intercalate
      (msg.name :: msg.fields.map (fieldText ft values))) =
        words isSpace msg.name ++ (msg.fields.map (fieldText ft values)).flatMap (words isSpace) :=
    words_intercalate rfl _
  rw [RoundTrip, stringOfMessage_eq ft h, Option.bind_some, fieldValues_eq ft h]
  constructor
  · intro hread
    rw [valuesOfString] at hread
    split at hread
    · cases hread
    · rename_i name args hsplit
      obtain ⟨⟨id', msg'⟩, hname, hread⟩ := Option.bind_eq_some_iff.mp hread
      obtain ⟨out, hout, heq⟩ := Option.map_eq_some_iff.mp hread
      obtain ⟨hid, rfl⟩ := Prod.mk.inj heq
      obtain rfl : id' = id := hid
      obtain ⟨rfl, rfl⟩ := messageOfName_inj hfound hname
      have hall := (readFields_iff ft values msg'.fields args).mp hout
      have hword : ∀ w ∈ msg'.name :: args, w ≠ [] ∧ NoSpace w :=
        fun w hw => of_mem_words (hsplit ▸ hw)
      obtain ⟨hne, hnoSpace⟩ := hword _ List.mem_cons_self
      have hself := words_of_forall hne hnoSpace
      refine ⟨hself, ?_⟩
      rw [hwords, hself] at hsplit
      obtain ⟨-, hargs⟩ := List.cons_eq_cons.mp hsplit
      have hlength : args.length = (msg'.fields.map (fieldText ft values)).length := by
        rw [List.length_map, hall.length_eq]
      have hle : ∀ text ∈ msg'.fields.map (fieldText ft values),
          (words isSpace text).length ≤ 1 := by
        intro text htext
        obtain ⟨f, hf, rfl⟩ := List.mem_map.mp htext
        obtain ⟨k, hk⟩ := List.getElem?_of_mem hf
        obtain ⟨w, hw, hvalue⟩ := getElem?_of_forall₂ hall.flip hk
        exact length_words_le_one_of_value ft (lookup_eq ft h hf).2
          (hword w (List.mem_cons_of_mem _ (List.mem_of_getElem? hw))).2 hvalue
      have htexts := List.forall₂_map_left_iff.mp (forall₂_of_flatMap_words hargs hlength hle)
      intro f hf
      obtain ⟨k, hk⟩ := List.getElem?_of_mem hf
      obtain ⟨w, hw, hvalue⟩ := getElem?_of_forall₂ hall.flip hk
      obtain ⟨f', hf', htext⟩ := getElem?_of_forall₂ htexts hw
      cases hk.symm.trans hf'
      exact ⟨w, htext, hvalue⟩
  · rintro ⟨hname, hlegible⟩
    obtain ⟨args, hargs⟩ := exists_forall₂ hlegible
    have hflat := flatMap_words_eq ft values hargs
    have hread := (readFields_iff ft values msg.fields args).mpr (hargs.imp fun _ _ hw => hw.2)
    rw [valuesOfString, hwords, hname, hflat, List.singleton_append]
    simp only [hfound, Option.bind_some, hread, Option.map_some]

/-- A message is read back from its text exactly when no separator cuts or swallows its name or
one of its values. -/
theorem ivy_round_trip_iff {table : MessageTable} {id : Nat} {msg : Message} {values : Values F}
    (hfound : messageOfName table msg.name = some (id, msg)) (h : Assigned ft msg values)
    (float42 : F) : RoundTrip ft table float42 id msg values ↔ MessageUncut msg values := by
  rw [roundTrip_iff_legible ft hfound h, MessageUncut]
  constructor
  · rintro ⟨hname, hlegible⟩
    obtain ⟨hne, hnoSpace⟩ := of_mem_words (hname ▸ List.mem_singleton_self msg.name)
    refine ⟨hne, hnoSpace, fun f hf v hv => ?_⟩
    obtain ⟨hlookup, hfits⟩ := lookup_eq ft h hf
    cases hlookup.symm.trans hv
    exact (legible_iff_uncut ft hfits).mp (hlegible f hf)
  · rintro ⟨hne, hnoSpace, huncut⟩
    refine ⟨words_of_forall hne hnoSpace, fun f hf => ?_⟩
    obtain ⟨hlookup, hfits⟩ := lookup_eq ft h hf
    exact (legible_iff_uncut ft hfits).mpr (huncut f hf _ hlookup)

end

/-! ### A message with an array, and one with an empty string -/

/-- Floats that are whole numbers. -/
def wholeText : FloatText Int where
  sprintf _ x := IntText.ofInt x ++ ['.', '0', '0', '0', '0', '0', '0']
  toText x := IntText.ofInt x ++ ['.']
  ofText s := IntText.toInt 63 (s.takeWhile (· ≠ '.'))
  toText_ne_nil x := by simp
  toText_clean x c hc := by
    rcases List.mem_append.mp hc with hc | hc
    · exact (clean_ofInt x).2 c hc
    · obtain rfl := List.mem_singleton.mp hc
      decide

def waypointMessage : Message where
  name := ['W', 'P']
  fields :=
    [{ name := ['i', 'd'], type := .scalar (.number .uint8), fformat := ['%', 'u'] },
      { name := ['n', 'a', 'm', 'e'], type := .scalar .string, fformat := ['%', 's'] },
      { name := ['x', 'y'], type := .array (.number .int16), fformat := ['%', 'd'] }]

def waypointTable : MessageTable where
  entries := [(7, waypointMessage)]
  nodup := by decide

def waypointValues (name : Text) : Values Int :=
  [(['i', 'd'], .scalar (.int 3)), (['n', 'a', 'm', 'e'], .scalar (.string name)),
    (['x', 'y'], .array [.int (-20), .int 15])]

theorem assigned_waypointValues (name : Text) :
    Assigned wholeText waypointMessage (waypointValues name) where
  known v hv := by
    simp only [waypointValues, List.mem_cons, List.not_mem_nil, or_false] at hv
    simp only [waypointMessage, List.mem_cons, List.not_mem_nil, or_false]
    rcases hv with rfl | rfl | rfl <;> simp
  fits f hf := by
    simp only [waypointMessage, List.mem_cons, List.not_mem_nil, or_false] at hf
    rcases hf with rfl | rfl | rfl
    · exact ⟨_, rfl, show (0 : Int) ≤ 3 ∧ (3 : Int) < 2 ^ 8 by decide⟩
    · exact ⟨_, rfl, trivial⟩
    · refine ⟨_, rfl, fun v hv => ?_⟩
      simp only [List.mem_cons, List.not_mem_nil, or_false] at hv
      rcases hv with rfl | rfl
      · exact show (-2 ^ 15 : Int) ≤ -20 ∧ (-20 : Int) < 2 ^ 15 by decide
      · exact show (-2 ^ 15 : Int) ≤ 15 ∧ (15 : Int) < 2 ^ 15 by decide

theorem forall_isSpace_eq_false {s : Text} (h : (s.all fun c => !isSpace c) = true) :
    ∀ c ∈ s, isSpace c = false := by
  intro c hc
  have hnot := List.all_eq_true.mp h c hc
  rwa [Bool.not_eq_true'] at hnot

theorem ivy_round_trip_home :
    messageOfName waypointTable waypointMessage.name = some (7, waypointMessage) ∧
      Assigned wholeText waypointMessage (waypointValues ['H', 'O', 'M', 'E']) ∧
      RoundTrip wholeText waypointTable 4 7 waypointMessage
        (waypointValues ['H', 'O', 'M', 'E']) := by
  refine ⟨rfl, assigned_waypointValues _, ?_⟩
  refine (ivy_round_trip_iff wholeText rfl (assigned_waypointValues _) 4).mpr ⟨by decide, ?_, ?_⟩
  · exact forall_isSpace_eq_false rfl
  · intro f hf v hv
    simp only [waypointMessage, List.mem_cons, List.not_mem_nil, or_false] at hf
    rcases hf with rfl | rfl | rfl
    · cases hv
      exact True.intro
    · cases hv
      exact ⟨by decide, forall_isSpace_eq_false rfl⟩
    · cases hv
      refine ⟨by decide, fun v hv => ?_, fun v hv => ?_, fun v hv => ?_⟩
      · simp only [List.mem_cons, List.not_mem_nil, or_false] at hv
        rcases hv with rfl | rfl <;> exact True.intro
      · cases hv
        exact True.intro
      · cases hv
        exact True.intro

/-- An empty string is swallowed, and the text has too few fields. -/
theorem ivy_text_not_read :
    Assigned wholeText waypointMessage (waypointValues []) ∧
      ¬ RoundTrip wholeText waypointTable 4 7 waypointMessage (waypointValues []) := by
  refine ⟨assigned_waypointValues _, fun h => ?_⟩
  have hnone : (stringOfMessage wholeText 4 waypointMessage (waypointValues [])).bind
      (valuesOfString wholeText waypointTable) = none := by decide
  rw [RoundTrip, hnone] at h
  cases h

end Paparazzi.Messages.IvyText
