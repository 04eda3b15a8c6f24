import PatternLint.Scan.Result
import PatternLint.Settings
import PatternLint.Text.Newline
import PatternLint.Text.Utf8

/-! Files and folders, and scanning them. A folder is scanned with all that is in it, apart from
what has a name that begins with a dot. -/

namespace PatternLint.Scan

inductive Entry where
  | file (bytes : List Nat)
  | folder (entries : List (String × Entry))
  deriving Inhabited

/-- Why a path leads nowhere. -/
inductive PathFault where
  | missing
  | notFolder
  deriving Repr, DecidableEq

def PathFault.message (f : PathFault) (path : String) : String :=
  (match f with
    | .missing => "[Errno 2] No such file or directory: "
    | .notFolder => "[Errno 20] Not a directory: ") ++ Text.quoted path

namespace Entry

/-- Follows the parts of a path; `above` are the folders around, innermost first. A dot stays where
it is, and so does nothing, as between two slashes; two dots lead to the folder around. All of them
are possible in a folder only. -/
def follow (above : List Entry) : List (List Char) → Entry → Except PathFault Entry
  | [], e => .ok e
  | _ :: _, file _ => .error .notFolder
  | part :: rest, folder entries =>
    if part.isEmpty ∨ part = ['.'] then follow above rest (folder entries)
    else if part = ['.', '.'] then
      follow above.tail rest (above.headD (folder entries))
    else match entries.lookup (String.ofList part) with
      | some e => follow (folder entries :: above) rest e
      | none => .error .missing

/-- What a path leads to. -/
def find (root : Entry) (path : String) : Except PathFault Entry :=
  if path.isEmpty then .error .missing else follow [] (Text.split ['/'] path.toList) root

/-- Puts a file into a folder, with the folders around it. -/
def put (bytes : List Nat) : List String → Entry → Entry
  | [], _ => file bytes
  | part :: rest, e =>
    let entries := match e with
      | folder entries => entries
      | file _ => []
    let inner := put bytes rest ((entries.lookup part).getD (folder []))
    folder ((part, inner) :: entries.filter fun p => p.1 != part)

def isHidden (name : String) : Bool :=
  name.toList.head? == some '.'

/-- The path of an entry of a folder. -/
def pathOf (folder name : String) : String :=
  if Text.endsWith ['/'] folder.toList then folder ++ name else folder ++ "/" ++ name

def byName (items : List (String × α)) : List (String × α) :=
  items.mergeSort fun a b => a.1 ≤ b.1

/-- The contents of the files among entries, by name. -/
def filesAmong (entries : List (String × Entry)) : List (String × List Nat) :=
  entries.filterMap fun
    | (name, file bytes) => some (name, bytes)
    | _ => none

def isSource (suffixes : List String) (name : String) : Bool :=
  !isHidden name && suffixes.any fun s => Text.endsWith s.toList name.toList

mutual
/-- The paths and contents of the source files in a folder: its own, and then those of the folders
in it, each in the order of names. -/
def sources (suffixes : List String) (path : String) (e : Entry) : List (String × List Nat) :=
  match e with
  | file _ => []
  | folder entries =>
    let own := (filesAmong entries).filter fun f => isSource suffixes f.1
    (byName own).map (fun (name, bytes) => (pathOf path name, bytes)) ++
      (byName (sourcesOfFolders suffixes path entries)).flatMap (·.2)
def sourcesOfFolders (suffixes : List String) (path : String) (entries : List (String × Entry)) :
    List (String × List (String × List Nat)) :=
  match entries with
  | [] => []
  | (name, e) :: rest =>
    let others := sourcesOfFolders suffixes path rest
    if isHidden name then others else (name, sources suffixes (pathOf path name) e) :: others
end

end Entry

def unreadable (path reason : String) : Result :=
  ⟨[⟨path, 0, 1, 0, "Cannot read file: " ++ reason⟩], 0, 1⟩

def scanFile (settings : Settings) (path : String) (bytes : List Nat) : Except Fault Result :=
  match Text.Utf8.decode bytes with
  | .error f => .ok (unreadable path f.message)
  | .ok cs => scan (document path (Text.plainNewlines cs) settings.loopLimit)

def scanFiles (settings : Settings) (total : Result) : List (String × List Nat) →
    Except Fault Result
  | [] => .ok total
  | (path, bytes) :: rest => do scanFiles settings (total.add (← scanFile settings path bytes)) rest

/-- Scans what paths lead to. -/
def scanPaths (settings : Settings) (total : Result) :
    List (String × Except PathFault Entry) → Except Fault Result
  | [] => .ok total
  | (path, .error f) :: rest =>
    scanPaths settings (total.add (unreadable path (f.message path))) rest
  | (path, .ok (.file bytes)) :: rest => do
    scanPaths settings (total.add (← scanFile settings path bytes)) rest
  | (path, .ok e) :: rest => do
    scanPaths settings (← scanFiles settings total (e.sources settings.suffixes path)) rest

end PatternLint.Scan
