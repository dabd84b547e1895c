import ArchetypeProxy.Library.Text

/-!
# The URLs built for an upstream

Both builders trim the trailing slashes of the upstream and append the request
path and query as they stand. The WebSocket builder first exchanges the scheme
and refuses an upstream whose scheme it does not know.
-/

set_option autoImplicit false

namespace ArchetypeProxy.Upstream
open ArchetypeProxy.Text

def withQuery (url : String) : Option String → String
  | none => url
  | some q => url ++ "?" ++ q

def proxyUrl (upstream path : String) (query : Option String) : String :=
  withQuery (trimEndMatches upstream '/' ++ path) query

def wsBase (upstream base : String) : Except String String :=
  match stripPrefix base "https://" with
  | some rest => .ok ("wss://" ++ rest)
  | none =>
    match stripPrefix base "http://" with
    | some rest => .ok ("ws://" ++ rest)
    | none =>
      if startsWith base "ws://" || startsWith base "wss://" then .ok base
      else .error ("unsupported upstream scheme: " ++ upstream)

def buildUpstreamWsUrl (upstream path : String) (query : Option String) : Except String String :=
  match wsBase upstream (trimEndMatches upstream '/') with
  | .error e => .error e
  | .ok base => .ok (withQuery (base ++ path) query)

end ArchetypeProxy.Upstream
