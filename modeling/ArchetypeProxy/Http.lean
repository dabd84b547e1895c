import ArchetypeProxy.Library.CounterNonce
import ArchetypeProxy.Library.Text

/-!
# Requests and responses at the HTTP boundary

Header names are lower case and may repeat; a lookup takes the first value.
A header value is bytes, and is text only when every byte is a visible ASCII
character, a blank or a tab.
-/

set_option autoImplicit false

namespace ArchetypeProxy.Http
open ArchetypeProxy.CounterNonce

abbrev Headers := List (String × Bytes)

structure Uri where
  authority : Option String
  path : String
  query : Option String
  deriving DecidableEq, Repr

/-- The head of a request. Nested routing keeps the URI as first received. -/
structure RequestHead where
  method : String
  uri : Uri
  originalUri : Option Uri
  headers : Headers
  deriving DecidableEq, Repr

structure Response where
  status : ℕ
  body : String
  deriving DecidableEq, Repr

def Headers.get (hs : Headers) (name : String) : Option Bytes :=
  (hs.find? (fun h => h.1 == name)).map Prod.snd

def Headers.containsKey (hs : Headers) (name : String) : Bool := hs.any (fun h => h.1 == name)

def Headers.values (hs : Headers) (name : String) : List Bytes :=
  (hs.filter (fun h => h.1 == name)).map Prod.snd

theorem get_eq_head (hs : Headers) (name : String) : hs.get name = (hs.values name).head? := by
  rw [Headers.get, Headers.values, List.head?_map, List.head?_filter]

def visible (b : UInt8) : Bool := (0x20 ≤ b && b < 0x7F) || b == 0x09

def toStr (v : Bytes) : Option String :=
  if v.all visible then some (String.ofList (v.map (fun b => Char.ofNat b.toNat))) else none

def Headers.text (hs : Headers) (name : String) : Option String := (hs.get name).bind toStr

def tokenChar (c : Char) : Bool :=
  c.isAlphanum || "!#$%&'*+-.^_\x60|~".toList.contains c

def methodFromBytes (m : String) : Option String :=
  if m ≠ "" ∧ m.toList.all tokenChar then some m else none

end ArchetypeProxy.Http
