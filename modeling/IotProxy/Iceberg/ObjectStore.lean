import Mathlib.Data.Char
import IotProxy.Lib.Listing
import IotProxy.Lib.Text

/-!
# The object store of the catalog

`s3store/client.go` over an object store with atomic puts. A store is the list of its puts, the
newest first; objects are never deleted.

`ListObjectsV2` with a delimiter rolls the keys below a sub-folder up into one entry, and returns at
most 1000 entries, objects and sub-folders together, in key order.
-/

namespace IotProxy.Iceberg

/-- The puts an object store has executed, the newest first. -/
abbrev Store := List (Text × Text)

namespace Store

def put (store : Store) (key content : Text) : Store :=
  (key, content) :: store

def get (store : Store) (key : Text) : Option Text :=
  store.lookup key

@[simp]
theorem get_put_self (store : Store) (key content : Text) :
    (store.put key content).get key = some content := by
  simp [put, get]

theorem get_put_of_ne {key other : Text} (different : other ≠ key) (store : Store)
    (content : Text) : (store.put key content).get other = store.get other := by
  simp [put, get, List.lookup_cons, beq_eq_false_iff_ne.mpr different]

/-- The entry a key contributes to the listing of its folder: the rest of the key, cut after
the first delimiter. -/
def rollUp (rest : Text) : Text :=
  match rest.span (· != '/') with
  | (name, []) => name
  | (name, _ :: _) => name ++ ['/']

def entries (store : Store) (folder : Text) : List Text :=
  store.filterMap fun object =>
    if folder.isPrefixOf object.1 then some (rollUp (object.1.drop folder.length)) else none

def listObjects (store : Store) (folder : Text) : List Text :=
  Listing.page 1000 (store.entries folder)

def isObject (entry : Text) : Bool :=
  !entry.isEmpty && !entry.contains '/'

/-- `Client.List`: the names of the objects of a folder, or `none` if there is nothing. -/
def list (store : Store) (folder : Text) : Option (List Text) :=
  let page := store.listObjects folder
  if page.isEmpty then none else some (page.filter isObject)

section Lemmas

variable {store : Store} {folder name : Text}

theorem rollUp_of_not_mem (noDelimiter : '/' ∉ name) : rollUp name = name := by
  have whole : name.takeWhile (· != '/') = name := by
    rw [List.takeWhile_eq_self_iff]
    intro char mem
    simp only [bne_iff_ne, ne_eq]
    rintro rfl
    exact noDelimiter mem
  have nothing : name.dropWhile (· != '/') = [] := by
    have split := List.takeWhile_append_dropWhile (p := (· != '/')) (l := name)
    rw [whole] at split
    simpa using split
  simp [rollUp, List.span_eq_takeWhile_dropWhile, whole, nothing]

theorem entries_put (noDelimiter : '/' ∉ name) (content : Text) :
    (store.put (folder ++ name) content).entries folder = name :: store.entries folder := by
  simp [put, entries, rollUp_of_not_mem noDelimiter]

theorem find?_list_eq_some_iff {files : List Text} {property : Text → Bool}
    (objects : ∀ entry, property entry → isObject entry)
    (listed : store.list folder = some files) (name : Text) :
    (files.insertionSort (· ≤ ·)).find? property = some name ↔
      name ∈ store.entries folder ∧ Listing.rank (store.entries folder) name < 1000 ∧
        property name ∧ ∀ other ∈ store.entries folder, property other → name ≤ other := by
  simp only [list] at listed
  split at listed
  · cases listed
  · cases listed
    have sorted : ((store.listObjects folder).filter isObject).Pairwise (· ≤ ·) :=
      ((Listing.page_sorted _ _).imp le_of_lt).filter _
    have sameProperty :
        (fun entry => decide (isObject entry = true ∧ property entry = true)) = property := by
      funext entry
      by_cases holds : property entry = true
      · simp [holds, objects entry holds]
      · simp [holds]
    rw [sorted.insertionSort_eq, List.find?_filter, sameProperty]
    exact Listing.find?_page_eq_some_iff

theorem list_isSome (mem : name ∈ store.entries folder) : (store.list folder).isSome := by
  have nonempty : store.listObjects folder ≠ [] :=
    Listing.page_ne_nil (by decide) (List.ne_nil_of_mem mem)
  simp [list, nonempty]

end Lemmas

end Store

/-- What the client reads of a URL. -/
structure Url where
  scheme : Text
  path : Text

section Keys

/-- An element of a path after the elements that are kept, the last one first. -/
def cleanElement (kept : List Text) (element : Text) : List Text :=
  if element = [] ∨ element = ".".toList then kept
  else if element = "..".toList then kept.tail
  else element :: kept

def cleanElements (path : Text) : List Text :=
  ((path.splitOn '/').foldl cleanElement []).reverse

/-- `path.Clean` of a path that begins with a slash. -/
def cleanPath (path : Text) : Text :=
  if cleanElements path = [] then ['/'] else (cleanElements path).flatMap ('/' :: ·)

/-- `strings.TrimPrefix` with a slash. -/
def trimSlash : Text → Text
  | '/' :: rest => rest
  | text => text

variable (urlParse : Text → Option Url)

def objectKey (name : Text) : Text :=
  let name := match urlParse name with
    | some url => if url.scheme ≠ [] then trimSlash url.path else name
    | none => name
  trimSlash (cleanPath ('/' :: name))

def objectPrefix (name : Text) : Text :=
  let key := objectKey urlParse name
  if key = [] ∨ key = ".".toList then [] else key.rdropWhile (· = '/') ++ ['/']

end Keys

end IotProxy.Iceberg
