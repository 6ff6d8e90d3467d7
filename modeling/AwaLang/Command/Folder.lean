import AwaLang.Command.Path

/-!
A folder of files held in memory, and the reading of a file by its path from inside it. A path may
lead out of the folder: there only directories are known, and none of them by a name.
-/

namespace AwaLang.Command

inductive ReadFault
  | notFound
  | isFolder
  | notFolder
  | nameTooLong
  | notText
  | other (message : String)
  deriving DecidableEq, Repr

def ReadFault.message : ReadFault → String
  | .notFound => "No such file or directory (os error 2)"
  | .isFolder => "Is a directory (os error 21)"
  | .notFolder => "Not a directory (os error 20)"
  | .nameTooLong => "File name too long (os error 36)"
  | .notText => "stream did not contain valid UTF-8"
  | .other message => message

inductive Entry
  | file (content : List UInt8)
  | folder

abbrev Folder := List (List (List Char) × Entry)

/-- Where a path has led: to names from the folder on, or to a directory around the folder. -/
inductive Place
  | inside (names : List (List Char))
  | outside
  deriving DecidableEq, Repr

namespace Place

def nameLimit : Nat := 255

def pathLimit : Nat := 4096

def up : Place → Place
  | .inside [] => .outside
  | .inside names => .inside names.dropLast
  | .outside => .outside

def next (place : Place) (step : List Char) : Except ReadFault Place :=
  if step.isEmpty || step = ['.'] then .ok place
  else if step = ['.', '.'] then .ok place.up
  else if (String.ofList step).utf8ByteSize > nameLimit then .error .nameTooLong
  else
    match place with
    | .inside names => .ok (.inside (names ++ [step]))
    | .outside => .error .notFound

end Place

namespace Folder

/-- What is at a place; a name with names below it is a folder. -/
def entry? (folder : Folder) (place : Place) : Option Entry :=
  match place with
  | .outside => some .folder
  | .inside [] => some .folder
  | .inside names =>
    match folder.lookup names with
    | some entry => some entry
    | none => if folder.any fun (name, _) => names.isPrefixOf name then some .folder else none

def follow (folder : Folder) (place : Place) (route : List (List Char)) :
    Except ReadFault (List UInt8) :=
  match route, folder.entry? place with
  | _, none => .error .notFound
  | [], some (.file content) => .ok content
  | [], some .folder => .error .isFolder
  | _ :: _, some (.file _) => .error .notFolder
  | step :: rest, some .folder =>
    match place.next step with
    | .error fault => .error fault
    | .ok place => follow folder place rest

/-- The content of a file. A path that begins with a slash starts outside. -/
def read (folder : Folder) (path : String) : Except ReadFault (List UInt8) :=
  if path.utf8ByteSize ≥ Place.pathLimit then .error .nameTooLong
  else
    match path.toList with
    | '/' :: rest => folder.follow .outside (Text.pieces (· == '/') rest)
    | chars => folder.follow (.inside []) (Text.pieces (· == '/') chars)

def ofNames (entries : List (String × Entry)) : Folder :=
  entries.map fun (name, entry) => (Path.components name.toList, entry)

end Folder

end AwaLang.Command
