import ApexForensic.Domain.Dicts

/-!
# Event elements

What an event record takes from the tree of its element: the texts of
`EventData` by name and the elements below `UserData` as nested dictionaries;
and the records that a stream of end tags yields, each element named `Event`
when it ends and cleared after that.  The text between elements is left out:
neither extraction reads it.
-/

namespace ApexForensic.EventLog

open ApexForensic.Support ApexForensic.Domain

def maxEventXmlBytes : ℕ := 64 * 1024 * 1024

inductive Element where
  | node (tag : String) (attrib : List (String × String))
      (text : Option String) (children : List Element)

namespace Element

def tag : Element → String
  | node tag _ _ _ => tag

def attrib : Element → List (String × String)
  | node _ attrib _ _ => attrib

def text : Element → Option String
  | node _ _ text _ => text

def children : Element → List Element
  | node _ _ _ children => children

end Element

/-- `tag.rsplit("}", 1)[-1]` -/
def localName (tag : String) : String :=
  String.ofList (tag.toList.reverse.takeWhile (· ≠ '}')).reverse

def firstChild (element : Element) (name : String) : Option Element :=
  element.children.find? fun child => localName child.tag = name

/-- A decimal number as text. -/
def decimal (n : ℕ) : String := String.ofList (Nat.toDigits 10 n)

/-! ## Extraction -/

/-- `{"_attributes": dict(element.attrib)} if element.attrib else {}` -/
def attributeItems (attrib : List (String × String)) : Items :=
  if attrib.isEmpty then []
  else [("_attributes",
    .obj (dictOf (attrib.map fun a => (a.1, Json.str a.2))))]

mutual

def elementToData : Element → Json
  | .node _ attrib text children =>
      if children.isEmpty then optionalText text
      else .obj
        (updateDict (dictOf (childItems children)) (attributeItems attrib))

/-- The items of the dictionary of an element's children. -/
def childItems : List Element → Items
  | [] => []
  | child :: children =>
      (localName child.tag, elementToData child) :: childItems children

end

/-- The name of a `Data` element that has one. -/
def givenName (child : Element) : Option String :=
  match child.attrib.lookup "Name" with
  | some name => if name = "" then none else some name
  | none => none

/-- The assignments to `values`, from an `ordinal` on. -/
def eventDataItems : ℕ → List Element → Items
  | _, [] => []
  | ordinal, child :: children =>
      if localName child.tag ≠ "Data" then eventDataItems ordinal children
      else
        match givenName child with
        | some name =>
            (name, optionalText child.text) :: eventDataItems ordinal children
        | none =>
            ("Data" ++ decimal ordinal, optionalText child.text) ::
              eventDataItems (ordinal + 1) children

def eventData (element : Element) : Json :=
  match firstChild element "EventData" with
  | none => .obj []
  | some eventData => .obj (dictOf (eventDataItems 0 eventData.children))

/-- `f"{_local_name(child.tag)}#{index}"`, from an `index` on. -/
def userDataItems : ℕ → List Element → Items
  | _, [] => []
  | index, child :: children =>
      (localName child.tag ++ "#" ++ decimal index, elementToData child) ::
        userDataItems (index + 1) children

def userData (element : Element) : Json :=
  match firstChild element "UserData" with
  | none => .obj []
  | some userData => .obj (dictOf (userDataItems 0 userData.children))

/-! ## The stream of records -/

mutual

/-- The records that the end tags of an element yield, and what is left of the
element after them. -/
def endTags : Element → List Element × Element
  | .node tag attrib text children =>
      let ended := endTagsOfChildren children
      if localName tag = "Event" then
        (ended.1 ++ [.node tag attrib text ended.2], .node tag [] none [])
      else (ended.1, .node tag attrib text ended.2)

def endTagsOfChildren : List Element → List Element × List Element
  | [] => ([], [])
  | child :: children =>
      let ended := endTags child
      let later := endTagsOfChildren children
      (ended.1 ++ later.1, ended.2 :: later.2)

end

def inputTooLarge : PyError :=
  .builtin .valueError "exported Event XML exceeds the size limit"

/-- The records of a file of a size that holds a document. -/
def iterEventXml (fileSize : ℕ) (document : Element) :
    Except PyError (List Element) :=
  if maxEventXmlBytes < fileSize then .error inputTooLarge
  else .ok (endTags document).1

mutual

/-- The elements named `Event` that no other one contains, in their order. -/
def topLevelRecords : Element → List Element
  | .node tag attrib text children =>
      if localName tag = "Event" then [.node tag attrib text children]
      else topLevelRecordsOf children

def topLevelRecordsOf : List Element → List Element
  | [] => []
  | child :: children => topLevelRecords child ++ topLevelRecordsOf children

end

end ApexForensic.EventLog
