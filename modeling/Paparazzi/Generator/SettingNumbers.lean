import Mathlib
import Paparazzi.Generator.Settings

/-!
The numbers of the settings in the switches of the aircraft and in the readers of the ground.
-/

namespace Paparazzi.Generator.Settings

/-- The settings in the order of the document. -/
def leaves : List Node → List DlSetting
  | [] => []
  | .dlSetting s :: nodes => s :: leaves nodes
  | .dlSettings _ children :: nodes => leaves children ++ leaves nodes

/-- The children of every group have one tag. -/
def OneTag : List Node → Prop
  | [] => True
  | .dlSetting _ :: nodes => OneTag nodes
  | .dlSettings _ children :: nodes => sameTag children = true ∧ OneTag children ∧ OneTag nodes

/-! ### The aircraft -/

theorem flattenAll_eq {nodes : List Node} {r settings : List DlSetting}
    (h : flattenAll nodes r = some settings) : settings = leaves nodes ++ r ∧ OneTag nodes := by
  induction nodes using leaves.induct generalizing r settings with
  | case1 =>
      rw [flattenAll, Option.some.injEq] at h
      rw [leaves, OneTag]
      exact ⟨h.symm, trivial⟩
  | case2 s nodes ih =>
      rw [flattenAll] at h
      obtain ⟨r', hr', hs⟩ := Option.bind_eq_some_iff.mp h
      obtain ⟨rfl, htag⟩ := ih hr'
      rw [flatten, Option.some.injEq] at hs
      rw [leaves, OneTag]
      exact ⟨hs.symm, htag⟩
  | case3 attribs children nodes ihChildren ih =>
      rw [flattenAll] at h
      obtain ⟨r', hr', hs⟩ := Option.bind_eq_some_iff.mp h
      obtain ⟨rfl, htag⟩ := ih hr'
      rw [flatten] at hs
      split_ifs at hs with hsame
      obtain ⟨rfl, htag'⟩ := ihChildren hs
      rw [leaves, OneTag, List.append_assoc]
      exact ⟨rfl, hsame, htag', htag⟩

theorem printCases_eq {γ : Type*} {case : DlSetting → Option γ} {settings : List DlSetting}
    {idx : Nat} {cases : List ((DlSetting × Nat) × γ)}
    (h : printCases case idx settings = some cases) : cases.map Prod.fst = settings.zipIdx idx := by
  induction settings generalizing idx cases with
  | nil =>
      injection h with h
      subst h
      rfl
  | cons s settings ih =>
      obtain ⟨c, -, hrest⟩ := Option.bind_eq_some_iff.mp h
      obtain ⟨rest, hrest', rfl⟩ := Option.map_eq_some_iff.mp hrest
      rw [List.map_cons, ih hrest', List.zipIdx_cons]

/-! ### The readers in OCaml -/

theorem buildEach_eq {oneSetting : DlSetting → Bool} {nodes : List Node} {b b' : Build}
    (h : buildEach oneSetting nodes b = some b') :
    b'.i = b.i + (leaves nodes).length ∧
      b'.flatList = ((leaves nodes).zipIdx b.i).reverse ++ b.flatList := by
  induction nodes using leaves.induct generalizing b b' with
  | case1 =>
      rw [buildEach, Option.some.injEq] at h
      subst h
      rw [leaves]
      exact ⟨rfl, rfl⟩
  | case2 s nodes ih =>
      rw [buildEach] at h
      split_ifs at h
      obtain ⟨hi, hlist⟩ := ih h
      refine ⟨?_, ?_⟩
      · rw [hi, leaves, List.length_cons]
        dsimp only
        omega
      · rw [hlist, leaves, List.zipIdx_cons, List.reverse_cons, List.append_assoc]
        rfl
  | case3 attribs children nodes ihChildren ih =>
      rw [buildEach] at h
      split at h
      · obtain ⟨b₁, hchildren, hnodes⟩ := Option.bind_eq_some_iff.mp h
        obtain ⟨hi₁, hlist₁⟩ := ihChildren hchildren
        obtain ⟨hi, hlist⟩ := ih hnodes
        refine ⟨?_, ?_⟩
        · rw [hi, hi₁, leaves, List.length_append, Nat.add_assoc]
        · rw [hlist, hlist₁, hi₁, leaves, List.zipIdx_append, List.reverse_append,
            List.append_assoc]
      · cases h

theorem hashLoop_eq {nodes : List Node} {t t' : Hash} (h : hashLoop nodes t = some t') :
    t'.index = t.index + (leaves nodes).length ∧
      t'.indexOfSettings = t.indexOfSettings ++ (leaves nodes).zipIdx t.index := by
  induction nodes using leaves.induct generalizing t t' with
  | case1 =>
      rw [hashLoop, Option.some.injEq] at h
      subst h
      rw [leaves]
      exact ⟨rfl, (List.append_nil _).symm⟩
  | case2 s nodes ih =>
      rw [hashLoop] at h
      obtain ⟨v, -, hnodes⟩ := Option.bind_eq_some_iff.mp h
      obtain ⟨hindex, htable⟩ := ih hnodes
      refine ⟨?_, ?_⟩
      · rw [hindex, leaves, List.length_cons]
        dsimp only
        omega
      · rw [htable, leaves, List.zipIdx_cons, List.append_assoc]
        rfl
  | case3 attribs children nodes ihChildren ih =>
      rw [hashLoop] at h
      obtain ⟨t₁, hchildren, hnodes⟩ := Option.bind_eq_some_iff.mp h
      obtain ⟨hindex₁, htable₁⟩ := ihChildren hchildren
      obtain ⟨hindex, htable⟩ := ih hnodes
      refine ⟨?_, ?_⟩
      · rw [hindex, hindex₁, leaves, List.length_append, Nat.add_assoc]
      · rw [htable, htable₁, hindex₁, leaves, List.zipIdx_append, List.append_assoc]

theorem pageSettings_eq {oneSetting : DlSetting → Bool} {xml : Node}
    {numbers : List (DlSetting × Nat)} (h : pageSettings oneSetting xml = some numbers) :
    numbers = (leaves xml.children).zipIdx := by
  obtain ⟨b, hbuild, rfl⟩ := Option.map_eq_some_iff.mp h
  obtain ⟨tag, -, heach⟩ := Option.bind_eq_some_iff.mp hbuild
  rw [(buildEach_eq heach).2, List.append_nil, List.reverse_reverse]

theorem hashIndexOfSettings_eq {xml : Node} {numbers : List (DlSetting × Nat)}
    (h : hashIndexOfSettings xml = some numbers) : numbers = (leaves [xml]).zipIdx := by
  obtain ⟨t, hloop, rfl⟩ := Option.map_eq_some_iff.mp h
  rw [(hashLoop_eq hloop).2, List.nil_append]

/-! ### The reader in Python -/

/-- The settings with the attributes of the group they stand in, in the order in which they are
met. -/
def met (tabs : List (Attribs × List Node)) : List (Attribs × DlSetting) :=
  tabs.flatMap fun tab => (directSettings tab.2).map fun s => (tab.1, s)

theorem sameTag_tail {x : Node} {xs : List Node} (h : sameTag (x :: xs) = true) :
    sameTag xs = true := by
  cases xs with
  | nil => rfl
  | cons y ys =>
      simp only [sameTag, List.all_cons, Bool.and_eq_true, beq_iff_eq, List.all_eq_true] at h ⊢
      intro z hz
      rw [h.2 z hz, h.1]

theorem directSettings_of_groups {attribs : Attribs} {children nodes : List Node}
    (h : sameTag (.dlSettings attribs children :: nodes) = true) : directSettings nodes = [] := by
  simp only [sameTag, List.all_eq_true, beq_iff_eq] at h
  induction nodes with
  | nil => rfl
  | cons x xs ih =>
      cases x with
      | dlSetting s => exact absurd (h _ List.mem_cons_self) (by simp [Node.isSetting])
      | dlSettings a c => exact ih fun y hy => h y (List.mem_cons_of_mem _ hy)

theorem met_append (tabs tabs' : List (Attribs × List Node)) :
    met (tabs ++ tabs') = met tabs ++ met tabs' := List.flatMap_append

/-- Below groups whose children have one tag the settings are met in the order of the document. -/
theorem leaves_eq {nodes : List Node} (htag : OneTag nodes) (hsame : sameTag nodes = true) :
    leaves nodes = directSettings nodes ++ (met (theTabs nodes)).map Prod.snd := by
  induction nodes using leaves.induct with
  | case1 =>
      rw [leaves, directSettings, theTabs]
      rfl
  | case2 s nodes ih =>
      rw [OneTag] at htag
      rw [leaves, directSettings, theTabs, ih htag (sameTag_tail hsame), List.cons_append]
  | case3 attribs children nodes ihChildren ih =>
      rw [OneTag] at htag
      obtain ⟨hsame', htag', htag⟩ := htag
      have hnone := directSettings_of_groups hsame
      have hmet : met ((attribs, children) :: (theTabs children ++ theTabs nodes)) =
          (directSettings children).map (fun s => (attribs, s)) ++
            (met (theTabs children) ++ met (theTabs nodes)) := by
        rw [← met_append]
        rfl
      rw [leaves, ihChildren htag' hsame', ih htag (sameTag_tail hsame), hnone]
      simp only [directSettings, theTabs, hmet, hnone, List.map_append, List.map_map,
        List.nil_append, List.append_assoc, Function.comp_def, List.map_id']

section

variable {F : Type*} (float : String → Option F) (count : F → F → F → Option Int)

/-- The setting gets a number. -/
def Numbered (p : Attribs × DlSetting) : Prop :=
  (groupName p.1).isSome = true ∧ (settingName p.2.attribs).isSome = true ∧
    (minMaxStep float p.2.attribs).isSome = true

instance (p : Attribs × DlSetting) : Decidable (Numbered float p) := by
  unfold Numbered
  infer_instance

/-- The setting makes the reader fail: the number of its values cannot be computed. -/
def Raises (p : Attribs × DlSetting) : Prop :=
  Numbered float p ∧ (attrib p.2.attribs "values").isSome = true ∧
    ((minMaxStep float p.2.attribs).bind fun l => count l.1 l.2.1 l.2.2) = none

instance (p : Attribs × DlSetting) : Decidable (Raises float count p) := by
  unfold Raises
  infer_instance

/-- One turn for a setting together with its group. -/
def readMet (t : Hash) (p : Attribs × DlSetting) : Option Hash :=
  if (groupName p.1).isSome then readSetting float count t p.2 else some t

theorem readMet_eq (t : Hash) (p : Attribs × DlSetting) :
    readMet float count t p =
      if Raises float count p then none
      else if Numbered float p then
        some ⟨t.index + 1, t.indexOfSettings ++ [(p.2, t.index)]⟩
      else some t := by
  by_cases hname : (groupName p.1).isSome = true
  · rw [readMet, if_pos hname, readSetting]
    cases hsetting : settingName p.2.attribs with
    | none => simp [Raises, Numbered, hsetting]
    | some v =>
        cases hnumbers : minMaxStep float p.2.attribs with
        | none => simp [Raises, Numbered, hnumbers]
        | some l => simp [Raises, Numbered, hname, hsetting, hnumbers]
  · rw [readMet, if_neg hname]
    simp [Raises, Numbered, hname]

theorem foldlM_readTab (tabs : List (Attribs × List Node)) (t : Hash) :
    tabs.foldlM (readTab float count) t = (met tabs).foldlM (readMet float count) t := by
  induction tabs generalizing t with
  | nil => rfl
  | cons tab tabs ih =>
      have hmet : met (tab :: tabs) =
          (directSettings tab.2).map (fun s => (tab.1, s)) ++ met tabs := rfl
      have htab : readTab float count t tab =
          ((directSettings tab.2).map fun s => (tab.1, s)).foldlM (readMet float count) t := by
        rw [List.foldlM_map, readTab]
        by_cases hname : (groupName tab.1).isSome = true
        · simp only [readMet, hname, if_true]
        · simp only [readMet, hname]
          generalize directSettings tab.2 = settings
          induction settings with
          | nil => rfl
          | cons s settings ih => exact ih
      rw [List.foldlM_cons, hmet, List.foldlM_append, htab]
      exact congrArg _ (funext ih)

theorem foldlM_readMet (ps : List (Attribs × DlSetting)) (t : Hash) :
    ps.foldlM (readMet float count) t =
      if ∃ p ∈ ps, Raises float count p then none
      else
        some ⟨t.index + (ps.filter fun p => Numbered float p).length,
          t.indexOfSettings ++
            ((ps.filter fun p => Numbered float p).map Prod.snd).zipIdx t.index⟩ := by
  induction ps generalizing t with
  | nil => simp
  | cons p ps ih =>
      rw [List.foldlM_cons, readMet_eq]
      by_cases hraises : Raises float count p
      · rw [if_pos hraises, if_pos ⟨p, List.mem_cons_self, hraises⟩]
        rfl
      · have hexists : (∃ q ∈ p :: ps, Raises float count q) ↔ ∃ q ∈ ps, Raises float count q := by
          simp [hraises]
        rw [if_neg hraises]
        by_cases hnumbered : Numbered float p
        · rw [if_pos hnumbered, List.filter_cons_of_pos (by simpa using hnumbered)]
          change List.foldlM _ _ ps = _
          rw [ih]
          simp only [hexists, List.length_cons, List.map_cons, List.zipIdx_cons, List.append_assoc,
            List.singleton_append, Nat.add_assoc, Nat.add_comm 1]
        · rw [if_neg hnumbered, List.filter_cons_of_neg (by simpa using hnumbered)]
          change List.foldlM _ _ ps = _
          rw [ih]
          simp only [hexists]

/-- The reader fails, or it gives every setting a number. -/
def ReadsAll (xml : Node) : Prop :=
  (∃ p ∈ met (theTabs [xml]), Raises float count p) ∨ ∀ p ∈ met (theTabs [xml]), Numbered float p

theorem paparazziAcSettings_iff (xml : Node) :
    (paparazziAcSettings float count xml = none ∨
        paparazziAcSettings float count xml =
          some (((met (theTabs [xml])).map Prod.snd).zipIdx)) ↔
      ReadsAll float count xml := by
  rw [paparazziAcSettings, foldlM_readTab, foldlM_readMet, ReadsAll]
  by_cases hraises : ∃ p ∈ met (theTabs [xml]), Raises float count p
  · rw [if_pos hraises]
    exact iff_of_true (Or.inl rfl) (Or.inl hraises)
  · rw [if_neg hraises]
    simp only [hraises, false_or, Option.map_some, reduceCtorEq, List.nil_append,
      Option.some.injEq]
    constructor
    · intro heq
      have hlength := congrArg List.length heq
      simp only [List.length_zipIdx, List.length_map] at hlength
      intro p hp
      have := List.length_filter_eq_length_iff.mp hlength p hp
      simpa using this
    · intro hall
      rw [List.filter_eq_self.mpr]
      intro p hp
      simpa using hall p hp

end

/-! ### The numbers -/

section

variable {F : Type*} (oneSetting : DlSetting → Bool) (float : String → Option F)
  (count : F → F → F → Option Int)

/-- The three switches of the aircraft have the same numbers, and every reader gives them to all
the settings or refuses the file. -/
structure NumbersAgree (switches : Switches) (xml : Node) : Prop where
  periodicSendDlValue : switches.periodicSendDlValue.map Prod.fst = switches.dlSetting.map Prod.fst
  settingsGetValue : switches.settingsGetValue.map Prod.fst = switches.dlSetting.map Prod.fst
  pageSettings : pageSettings oneSetting xml = none ∨
    pageSettings oneSetting xml = some (switches.dlSetting.map Prod.fst)
  hashIndexOfSettings : hashIndexOfSettings xml = none ∨
    hashIndexOfSettings xml = some (switches.dlSetting.map Prod.fst)
  paparazziAcSettings : paparazziAcSettings float count xml = none ∨
    paparazziAcSettings float count xml = some (switches.dlSetting.map Prod.fst)

end

theorem flattenAll_settings (settings : List DlSetting) :
    flattenAll (settings.map .dlSetting) [] = some settings := by
  induction settings with
  | nil => rw [List.map_nil, flattenAll]
  | cons s settings ih => rw [List.map_cons, flattenAll, ih, Option.bind_some, flatten]

theorem flatten_group (attribs : Attribs) (settings : List DlSetting) :
    flatten (joinXmlFiles [[.dlSettings attribs (settings.map .dlSetting)]]) [] = some settings := by
  have hsame : sameTag (settings.map .dlSetting) = true := by
    cases settings with
    | nil => rfl
    | cons s settings => simp [sameTag, Node.isSetting]
  have hone : ∀ group : Node, sameTag [group] = true := fun group => by simp [sameTag]
  simp only [joinXmlFiles, List.foldl_cons, List.foldl_nil, List.append_nil, flatten, hone, hsame,
    if_true, flattenAll, Option.bind_some, flattenAll_settings]

/-- The texts of the two numbers below. -/
def readDigit (s : String) : Option Int := [("0", 0), ("1", 1)].lookup s

def valueCount (lower upper step : Int) : Option Int :=
  if step = 0 then none else some ((upper - lower + step) / step)

def climb : DlSetting := ⟨[("var", "climb"), ("min", "0"), ("max", "1"), ("step", "1")], []⟩

/-- A setting without a step. -/
def cruise : DlSetting := ⟨[("var", "cruise"), ("min", "0"), ("max", "1")], []⟩

end Paparazzi.Generator.Settings
