import SharedGraph.SortedMap
import SharedGraph.Text.Base64
import SharedGraph.Text.Integer
import SharedGraph.Text.Sha256

/-! Names of objects. A name says what kind of object it stands for and when the
object was created, `kind:hash@time`; the root map has the fixed name `root`. -/
namespace SharedGraph

/-- The two kinds of shared object. -/
inductive Kind where
  | map
  | counter
  deriving DecidableEq, Repr

namespace Kind

def name : Kind → String
  | .map => "map"
  | .counter => "counter"

def ofName? (text : String) : Option Kind :=
  if text = "map" then some .map else if text = "counter" then some .counter else none

end Kind

/-- Any text may arrive as a name; `ObjectId.isValid` says which ones name an object. -/
structure ObjectId where
  text : String
  deriving DecidableEq, Repr

instance : Keyed ObjectId := ⟨ObjectId.text, fun a b same => by cases a; cases b; cases same; rfl⟩

namespace ObjectId

/-- The map that every participant starts from. -/
def root : ObjectId := ⟨"root"⟩

def isRoot (id : ObjectId) : Bool := id = root

/-- The text before the first occurrence of a character, if it occurs. -/
def before? (mark : Char) (text : List Char) : Option (List Char) :=
  if text.contains mark then some (text.takeWhile (· != mark)) else none

/-- The kind that stands before the first colon. -/
def kind? (id : ObjectId) : Option Kind :=
  if id.isRoot then some .map
  else (before? ':' id.text.toList).bind fun name => Kind.ofName? (String.ofList name)

/-- The creation time that stands after the last at sign. -/
def createdAt? (id : ObjectId) : Option Int :=
  (before? '@' id.text.toList.reverse).bind fun time => readTime? time.reverse

def isValid (id : ObjectId) : Bool :=
  id.isRoot || (id.kind?.isSome && id.createdAt?.isSome)

/-- The name of a new object. The hash covers the initial value and a nonce, with a
colon between them, so that equal values created twice get different names. -/
def derive (kind : Kind) (initialValue nonce : String) (createdAt : Int) : ObjectId :=
  let digest := Sha256.hash (initialValue ++ ":" ++ nonce).toUTF8.toList
  let hash := String.ofList (Base64.encode Base64.urlSafe digest)
  ⟨kind.name ++ ":" ++ hash ++ "@" ++ String.ofList (writeInteger createdAt)⟩

end ObjectId

end SharedGraph
