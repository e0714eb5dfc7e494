import DavQuery.Url.Reference

/-!
References relative to an address. What the reference leaves out is taken from the address, and its
path starts in the folder of the address's path.
-/

namespace DavQuery.Url.Reference

open Text

def relativeSchemes : List String :=
  ["", "ftp", "http", "gopher", "nntp", "imap", "wais", "file", "https", "shttp", "mms", "prospero",
    "rtsp", "rtsps", "rtspu", "sftp", "svn", "svn+ssh", "ws", "wss"]

def hostSchemes : List String :=
  ["", "ftp", "http", "gopher", "nntp", "telnet", "imap", "wais", "file", "mms", "https", "shttp",
    "snews", "prospero", "rtsp", "rtsps", "rtspu", "rsync", "svn", "svn+ssh", "sftp", "nfs", "git",
    "git+ssh", "ws", "wss", "itms-services"]

def isOneOf (schemes : List String) (scheme : List Char) : Bool :=
  schemes.any (·.toList == scheme)

def text (r : Reference) : List Char :=
  let path := r.path ++ if r.params.isEmpty then [] else ';' :: r.params
  let hasHost :=
    !r.host.isEmpty || (!r.scheme.isEmpty && isOneOf hostSchemes r.scheme) ||
      ['/', '/'].isPrefixOf path
  let path := if hasHost && !path.isEmpty && path.head? != some '/' then '/' :: path else path
  let path := if hasHost then '/' :: '/' :: r.host ++ path else path
  (if r.scheme.isEmpty then [] else r.scheme ++ [':']) ++ path ++
    (if r.query.isEmpty then [] else '?' :: r.query) ++
    (if r.fragment.isEmpty then [] else '#' :: r.fragment)

def dropEmptyInside (segments : List (List Char)) : List (List Char) :=
  match segments with
  | first :: second :: r =>
    first :: ((second :: r).dropLast.filter (!·.isEmpty)) ++ [(second :: r).getLast (by simp)]
  | segments => segments

/-- The segments with `.` and `..` followed; `done` holds those before, the last one first. -/
def follow (done : List (List Char)) : List (List Char) → List (List Char)
  | [] => done.reverse
  | s :: r =>
    if s = ['.', '.'] then follow (done.drop 1) r
    else if s = ['.'] then follow done r
    else follow (s :: done) r

def joinPath (base path : List Char) : List Char :=
  let parts := path.splitOn '/'
  let segments :=
    if path.head? = some '/' then parts
    else
      let folder := base.splitOn '/'
      let folder := if folder.getLast? = some [] then folder else folder.dropLast
      dropEmptyInside (folder ++ parts)
  let last := segments.getLastD []
  let done := follow [] segments ++ if last = ['.'] ∨ last = ['.', '.'] then [[]] else []
  match ['/'].intercalate done with
  | [] => ['/']
  | joined => joined

def join? (base s : List Char) : Option (List Char) :=
  if base.isEmpty then some s
  else if s.isEmpty then some base
  else do
    let b ← read? base
    let r ← readWith? b.scheme s
    if r.scheme ≠ b.scheme ∨ isOneOf relativeSchemes r.scheme = false then pure s
    else
      let takesHost := isOneOf hostSchemes r.scheme
      if takesHost && !r.host.isEmpty then pure r.text
      else
        let r := if takesHost then { r with host := b.host } else r
        if r.path.isEmpty && r.params.isEmpty then
          let query := if r.query.isEmpty then b.query else r.query
          pure { r with path := b.path, params := b.params, query : Reference }.text
        else pure { r with path := joinPath b.path r.path : Reference }.text

end DavQuery.Url.Reference
