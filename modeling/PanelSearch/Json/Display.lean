import PanelSearch.Fault
import PanelSearch.Limits
import PanelSearch.Text.Quoted

/-! JSON values as labels and messages show them. -/

namespace PanelSearch.Json

mutual

def display : Json → List Char
  | null => "None".toList
  | bool true => "True".toList
  | bool false => "False".toList
  | int n => intText n
  | double d => d.text .plain
  | str s => Text.quoted s
  | arr items => '[' :: [',', ' '].intercalate (displayItems items) ++ [']']
  | obj members => '{' :: [',', ' '].intercalate (displayMembers members) ++ ['}']

def displayItems : List Json → List (List Char)
  | [] => []
  | j :: rest => display j :: displayItems rest

def displayMembers : List (String × Json) → List (List Char)
  | [] => []
  | (k, j) :: rest => (Text.quoted k ++ [':', ' '] ++ display j) :: displayMembers rest

end

def shown (j : Json) : String := String.ofList (display j)

/-- A value as a label: a text as it is, everything else as messages show it. -/
def label : Json → String
  | str s => s
  | j => j.shown

mutual

/-- What keeps a value that stands in `depth` others from being shown: it stands too deep, or it is
an integer of too many digits, or one of its parts is not shown. -/
def unshown? (limits : Limits) (depth : Nat) (j : Json) : Option Fault :=
  if !Limits.allows limits.maxDepth (depth + 1) then some .tooDeep
  else
    match j with
    | int n =>
      if Limits.allows limits.maxDigits (natText n.natAbs).length then none else some .tooLong
    | arr items => unshownItem? limits (depth + 1) items
    | obj members => unshownMember? limits (depth + 1) members
    | _ => none

def unshownItem? (limits : Limits) (depth : Nat) : List Json → Option Fault
  | [] => none
  | j :: rest => (unshown? limits depth j).or (unshownItem? limits depth rest)

def unshownMember? (limits : Limits) (depth : Nat) : List (String × Json) → Option Fault
  | [] => none
  | (_, j) :: rest => (unshown? limits depth j).or (unshownMember? limits depth rest)

end

def kindName : Json → String
  | null => "NoneType"
  | bool _ => "bool"
  | int _ => "int"
  | double _ => "float"
  | str _ => "str"
  | arr _ => "list"
  | obj _ => "dict"

end PanelSearch.Json
