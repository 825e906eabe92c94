import Mathlib.Data.List.Basic

/-!
The settings: the numbers that `gen_settings` gives them for the aircraft, and the readers of
its `settings.xml` on the ground.
-/

namespace Paparazzi.Generator.Settings

abbrev Attribs := List (String × String)

/-- `Xml.attrib`; the exception is `none`. -/
def attrib (a : Attribs) (name : String) : Option String := a.lookup name

/-- An element `dl_setting`, with the buttons and keys in it. -/
structure DlSetting where
  attribs : Attribs
  children : List (String × Attribs)

inductive Node where
  | dlSetting (s : DlSetting)
  | dlSettings (attribs : Attribs) (children : List Node)

/-- The tag of a node: `true` for `dl_setting`. -/
def Node.isSetting : Node → Bool
  | dlSetting _ => true
  | dlSettings _ _ => false

/-- All the elements have the tag of the first one. -/
def sameTag : List Node → Bool
  | [] => true
  | x :: xs => xs.all fun y => y.isSetting == x.isSetting

/-! ### The aircraft -/

mutual

/-- `flatten`; a failed assertion is `none`. -/
def flatten : Node → List DlSetting → Option (List DlSetting)
  | .dlSetting s, r => some (s :: r)
  | .dlSettings _ children, r => if sameTag children then flattenAll children r else none

/-- `List.fold_right flatten`. -/
def flattenAll : List Node → List DlSetting → Option (List DlSetting)
  | [], r => some r
  | x :: xs, r => (flattenAll xs r).bind (flatten x)

end

/-- What a case of the switch in `DlSetting` does. -/
inductive SetCase where
  | assign (v : String)
  | handler (m h v : String)
  deriving DecidableEq

/-- A handler needs its module. -/
def setCase (s : DlSetting) : Option SetCase :=
  match attrib s.attribs "var", attrib s.attribs "handler", attrib s.attribs "module" with
  | none, _, _ => none
  | some v, none, _ => some (.assign v)
  | some v, some h, some m => some (.handler m h v)
  | some _, some _, none => none

/-- The variable in a case of the two other switches. -/
def varCase (s : DlSetting) : Option String := attrib s.attribs "var"

/-- A loop that prints the cases of a switch: the settings, their numbers and the cases. -/
def printCases {γ : Type*} (case : DlSetting → Option γ) :
    Nat → List DlSetting → Option (List ((DlSetting × Nat) × γ))
  | _, [] => some []
  | idx, s :: settings =>
      (case s).bind fun c => (printCases case (idx + 1) settings).map (((s, idx), c) :: ·)

structure Switches where
  dlSetting : List ((DlSetting × Nat) × SetCase)
  periodicSendDlValue : List ((DlSetting × Nat) × String)
  settingsGetValue : List ((DlSetting × Nat) × String)

def printDlSettings (xml : Node) : Option Switches :=
  (flatten xml []).bind fun settings =>
    (printCases setCase 0 settings).bind fun dlSetting =>
      (printCases varCase 0 settings).bind fun periodicSendDlValue =>
        (printCases varCase 0 settings).map fun settingsGetValue =>
          ⟨dlSetting, periodicSendDlValue, settingsGetValue⟩

/-- `join_xml_files`, from the children of `dl_settings` in each file: the element that is also
written to `settings.xml`. -/
def joinXmlFiles (files : List (List Node)) : Node :=
  .dlSettings [] (files.foldl (fun dlSettings these => these ++ dlSettings) [])

def Node.children : Node → List Node
  | dlSetting _ => []
  | dlSettings _ children => children

/-! ### The page of the settings -/

def sameTagForAll : List Node → Option Bool
  | [] => none
  | x :: xs => if sameTag (x :: xs) then some x.isSetting else none

/-- The counter and the list of the settings so far, the last one first. -/
structure Build where
  i : Nat
  flatList : List (DlSetting × Nat)

/-- The elements of a list whose tags have been checked; `oneSetting` tells whether the widget of
a setting can be built. -/
def buildEach (oneSetting : DlSetting → Bool) : List Node → Build → Option Build
  | [], b => some b
  | .dlSetting s :: nodes, b =>
      if oneSetting s then buildEach oneSetting nodes ⟨b.i + 1, (s, b.i) :: b.flatList⟩ else none
  | .dlSettings attribs children :: nodes, b =>
      match attrib attribs "name", sameTagForAll children with
      | some _, some _ => (buildEach oneSetting children b).bind (buildEach oneSetting nodes)
      | _, _ => none

def buildSettings (oneSetting : DlSetting → Bool) (xmlSettings : List Node) (b : Build) :
    Option Build :=
  (sameTagForAll xmlSettings).bind fun _ => buildEach oneSetting xmlSettings b

/-- The list of the class `settings`. -/
def pageSettings (oneSetting : DlSetting → Bool) (xml : Node) : Option (List (DlSetting × Nat)) :=
  (buildSettings oneSetting xml.children ⟨0, []⟩).map fun b => b.flatList.reverse

/-! ### The joystick -/

/-- The counter and the entries of the table so far. -/
structure Hash where
  index : Nat
  indexOfSettings : List (DlSetting × Nat)

/-- `hash_index_of_settings`. -/
def hashLoop : List Node → Hash → Option Hash
  | [], t => some t
  | .dlSetting s :: nodes, t =>
      (attrib s.attribs "var").bind fun _ =>
        hashLoop nodes ⟨t.index + 1, t.indexOfSettings ++ [(s, t.index)]⟩
  | .dlSettings _ children :: nodes, t => (hashLoop children t).bind (hashLoop nodes)

def hashIndexOfSettings (xml : Node) : Option (List (DlSetting × Nat)) :=
  (hashLoop [xml] ⟨0, []⟩).map Hash.indexOfSettings

/-! ### The reader in Python -/

/-- `//dl_settings`: the groups in the order of the document. -/
def theTabs : List Node → List (Attribs × List Node)
  | [] => []
  | .dlSetting _ :: nodes => theTabs nodes
  | .dlSettings attribs children :: nodes =>
      (attribs, children) :: (theTabs children ++ theTabs nodes)

/-- The elements `dl_setting` of a list. -/
def directSettings : List Node → List DlSetting
  | [] => []
  | .dlSetting s :: nodes => s :: directSettings nodes
  | .dlSettings _ _ :: nodes => directSettings nodes

/-- The attribute in capitals, or else the one in small letters. -/
def capitalOr (a : Attribs) (capital small : String) : Option String :=
  match attrib a capital with
  | some v => some v
  | none => attrib a small

def groupName (a : Attribs) : Option String := capitalOr a "NAME" "name"

def settingName (a : Attribs) : Option String :=
  match attrib a "shortname" with
  | some v => some v
  | none => capitalOr a "VAR" "var"

section

variable {F : Type*} (float : String → Option F) (count : F → F → F → Option Int)

/-- The three numbers of a setting; an exception is `none`. -/
def minMaxStep (a : Attribs) : Option (F × F × F) :=
  ((capitalOr a "MIN" "min").bind float).bind fun lower =>
    ((capitalOr a "MAX" "max").bind float).bind fun upper =>
      ((capitalOr a "STEP" "step").bind float).map fun step => (lower, upper, step)

/-- One turn of the loop over the settings of a group. An attribute that is missing lets it go on
without a number; an exception outside the `try` blocks is `none`. -/
def readSetting (t : Hash) (s : DlSetting) : Option Hash :=
  match settingName s.attribs, minMaxStep float s.attribs with
  | some _, some (lower, upper, step) =>
      if (attrib s.attribs "values").isSome ∧ count lower upper step = none then none
      else some ⟨t.index + 1, t.indexOfSettings ++ [(s, t.index)]⟩
  | _, _ => some t

def readTab (t : Hash) (tab : Attribs × List Node) : Option Hash :=
  if (groupName tab.1).isSome then (directSettings tab.2).foldlM (readSetting float count) t
  else some t

/-- `PaparazziACSettings.__init__`; `float` reads a number, and `count` is the number of values
that is expected. -/
def paparazziAcSettings (xml : Node) : Option (List (DlSetting × Nat)) :=
  ((theTabs [xml]).foldlM (readTab float count) ⟨0, []⟩).map Hash.indexOfSettings

end

end Paparazzi.Generator.Settings
