import Mhuxd.HttpConnection
import Mhuxd.Lib.LexPath

/-!
# Files of the web interface (`on_message_complete_cb`, `serve_dmap`)

A request that no handler takes is looked for in the directories that are mapped. What the system calls do is a
parameter (`FileSystem`), and so is the URL parser. `opened` records the file that is opened; no function reads it.
-/

namespace Mhuxd

open HttpConnection LexPath

def S_IFREG : UInt32 := 0x8000

inductive HttpMethod
  | get | post | put | patch | delete | other
deriving DecidableEq

/-- `struct http_handler`. -/
structure HttpHandler where
  path : List UInt8
  isDirHandler : Bool
deriving DecidableEq

/-- `struct http_directory_map`. -/
structure HttpDirectoryMap where
  urlPath : List UInt8
  fsPath : List UInt8
deriving DecidableEq

/-- `struct http_server`, the part about requests. -/
structure HttpServer where
  handlerList : List HttpHandler
  dirMapList : List HttpDirectoryMap

/-- A request that is complete. `responseCode` is 200 unless a part of it was too long. -/
structure HttpRequest where
  method : HttpMethod
  url : List UInt8
  responseCode : Nat

inductive FileErrno
  | eacces | enoent | enotdir | other
deriving DecidableEq

/-- What the system calls of `serve_dmap` do. Names are taken from the directory that was changed to. -/
structure FileSystem where
  chdir : List UInt8 → Option FileErrno
  stat : List UInt8 → List UInt8 → Except FileErrno (UInt32 × Nat)
  openFile : List UInt8 → List UInt8 → Option FileErrno
  read : List UInt8 → List UInt8 → List UInt8

inductive HttpReply
  | handler (h : HttpHandler)
  | errorPage (code : Nat)
  | file (contentType : List UInt8) (data : List UInt8)

structure HttpAnswer where
  reply : HttpReply
  opened : Option (HttpDirectoryMap × List UInt8)

/-- The path and the query of a URL, as `http_parser_parse_url` finds them. -/
abbrev UrlParser := List UInt8 → Option (List UInt8 × List UInt8)

/-- `hs_register_handler`. -/
def hsRegisterHandler (path : List UInt8) : HttpHandler :=
  ⟨path, path.getLast? = some 0x2f && path ≠ [0x2f]⟩

namespace FileSystem

/-- The suffixes of a URL and what they say about the content; a later one overrides. -/
def contentTypes : List (String × String) :=
  [(".gif", "image/gif"), (".png", "image/png"), (".css", "text/css"), (".js", "application/javascript"),
    (".mjs", "application/javascript"), (".json", "application/json"), (".svg", "image/svg+xml"), (".woff", "font/woff"),
    (".woff2", "font/woff2")]

def lower (c : UInt8) : UInt8 := if 0x41 ≤ c ∧ c ≤ 0x5a then c + 0x20 else c

def contentType (url : List UInt8) : List UInt8 :=
  contentTypes.foldl (fun ct t => if (chars t.1).isSuffixOf (url.map lower) then chars t.2 else ct) (chars "text/html")

/-- The page for a `chdir` or a `stat` that failed. -/
def lookupPage : FileErrno → Nat
  | .eacces => 403
  | .enoent | .enotdir => 404
  | .other => 500

/-- The page for an `open` that failed. -/
def openPage : FileErrno → Nat
  | .eacces => 403
  | .enoent => 404
  | .enotdir | .other => 500

/-- `serve_dmap`. -/
def serveDmap (fs : FileSystem) (url : List UInt8) (dm : HttpDirectoryMap) (subPath : List UInt8) : HttpAnswer :=
  match fs.chdir dm.fsPath with
  | some e => ⟨.errorPage (lookupPage e), none⟩
  | none =>
    match fs.stat dm.fsPath subPath with
    | .error e => ⟨.errorPage (lookupPage e), none⟩
    | .ok (mode, size) =>
      if mode &&& S_IFREG = 0 then ⟨.errorPage 500, none⟩
      else
        match fs.openFile dm.fsPath subPath with
        | some e => ⟨.errorPage (openPage e), none⟩
        | none =>
          let data := (fs.read dm.fsPath subPath).take size
          if data.length ≠ size then ⟨.errorPage 500, some (dm, subPath)⟩
          else ⟨.file (contentType url) data, some (dm, subPath)⟩

end FileSystem

namespace HttpServer

/-- A string ends at its first NUL. -/
def cString (p : List UInt8) : List UInt8 := p.takeWhile (· ≠ 0)

def takes (h : HttpHandler) (url : List UInt8) : Bool :=
  if h.isDirHandler then h.path.isPrefixOf url else h.path = url

/-- The directory of a path, and what is left of the path. -/
def dirMap (srv : HttpServer) (path : List UInt8) : Option (HttpDirectoryMap × List UInt8) :=
  (srv.dirMapList.find? fun dm => dm.urlPath.isPrefixOf path).map fun dm => (dm, cString (path.drop dm.urlPath.length))

/-- `on_message_complete_cb`. -/
def onMessageCompleteCb (srv : HttpServer) (fs : FileSystem) (parseUrl : UrlParser) (req : HttpRequest) : HttpAnswer :=
  if req.method = .other then ⟨.errorPage 501, none⟩
  else if req.responseCode ≠ 200 then ⟨.errorPage req.responseCode, none⟩
  else
    match parseUrl req.url with
    | none => ⟨.errorPage 400, none⟩
    | some (path, _) =>
      match srv.handlerList.find? (takes · req.url) with
      | some h => ⟨.handler h, none⟩
      | none =>
        match srv.dirMap path with
        | some (dm, subPath) => fs.serveDmap req.url dm subPath
        | none => ⟨.errorPage 404, none⟩

end HttpServer

/-! ### Names of files -/

/-- A component of a file name. -/
def component (n : List UInt8) : LexPath.Step (List UInt8) :=
  if n = [] ∨ n = chars "." then .stay else if n = chars ".." then .up else .into n

def components (p : List UInt8) : List (LexPath.Step (List UInt8)) := (p.splitOn 0x2f).map component

def isAbsolute (p : List UInt8) : Bool := p.head? = some 0x2f

/-- A file name, resolved in a directory. -/
def resolve (dir : List (List UInt8)) (p : List UInt8) : List (List UInt8) :=
  walk (if isAbsolute p then [] else dir) (components p)

namespace HttpDirectoryMap

/-- The names of the mapped directory. -/
def dir (dm : HttpDirectoryMap) : List (List UInt8) := resolve [] dm.fsPath

/-- The rest of a path stays in the directory: what it climbs it comes down again by the same names; from the root it
comes down by all names of the directory. -/
def Stays (dm : HttpDirectoryMap) (subPath : List UInt8) : Prop :=
  let (ups, names) := norm (components subPath)
  if isAbsolute subPath then dm.dir <+: names else dm.dir.drop (dm.dir.length - ups) <+: names

theorem stays_iff (dm : HttpDirectoryMap) (subPath : List UInt8) :
    dm.Stays subPath ↔ dm.dir <+: resolve dm.dir subPath := by
  unfold Stays resolve
  dsimp only
  split_ifs
  · rw [walk_eq]
    simp [place]
  · exact (prefix_walk_iff ..).symm

end HttpDirectoryMap

namespace FileSystem

/-- The system lets a file be opened, and it is a regular file (or has that bit of its mode). -/
def opens (fs : FileSystem) (dm : HttpDirectoryMap) (subPath : List UInt8) : Bool :=
  fs.chdir dm.fsPath = none &&
    (match fs.stat dm.fsPath subPath with
    | .ok (mode, _) => mode &&& S_IFREG ≠ 0
    | .error _ => false) && fs.openFile dm.fsPath subPath = none

end FileSystem

/-- A file that is opened is in its directory; with none there is no file in the answer. -/
def HttpAnswer.Confined (a : HttpAnswer) : Prop :=
  match a.opened, a.reply with
  | some (dm, subPath), _ => dm.dir <+: resolve dm.dir subPath
  | none, .file _ _ => False
  | none, _ => True

theorem FileSystem.confined_serveDmap (fs : FileSystem) (url : List UInt8) (dm : HttpDirectoryMap) (subPath : List UInt8) :
    (fs.serveDmap url dm subPath).Confined ↔ (fs.opens dm subPath = true → dm.Stays subPath) := by
  unfold serveDmap opens HttpAnswer.Confined
  rcases hchdir : fs.chdir dm.fsPath with _ | e
  · rcases hstat : fs.stat dm.fsPath subPath with e | ⟨mode, size⟩
    · simp
    · dsimp only
      by_cases hmode : mode &&& S_IFREG = 0
      · simp [hmode]
      · rcases hopen : fs.openFile dm.fsPath subPath with _ | e
        · rw [if_neg hmode]
          dsimp only
          rw [dm.stays_iff]
          split_ifs <;> simp [hmode]
        · simp [hmode]
  · simp

namespace HttpServer

/-- The request gets to `serve_dmap`, with this directory and file name. -/
def routed (srv : HttpServer) (parseUrl : UrlParser) (req : HttpRequest) : Option (HttpDirectoryMap × List UInt8) :=
  if req.method ≠ .other ∧ req.responseCode = 200 ∧ srv.handlerList.find? (takes · req.url) = none then
    (parseUrl req.url).bind fun u => srv.dirMap u.1
  else none

theorem confined_errorPage (code : Nat) : (⟨.errorPage code, none⟩ : HttpAnswer).Confined := trivial

/-- A file that is sent is one of its mapped directory unless the system opens one for a name that leaves it. -/
theorem files_confined_iff (srv : HttpServer) (fs : FileSystem) (parseUrl : UrlParser) (req : HttpRequest) :
    (srv.onMessageCompleteCb fs parseUrl req).Confined ↔ ∀ dm subPath, srv.routed parseUrl req = some (dm, subPath) →
      fs.opens dm subPath = true → dm.Stays subPath := by
  unfold onMessageCompleteCb routed
  by_cases hmethod : req.method = .other
  · simp [hmethod, confined_errorPage]
  · by_cases hcode : req.responseCode = 200
    · rw [if_neg hmethod, if_neg (not_not_intro hcode)]
      rcases hurl : parseUrl req.url with _ | ⟨path, query⟩
      · simp [confined_errorPage]
      · dsimp only
        rcases hh : srv.handlerList.find? (takes · req.url) with _ | h
        · rw [if_pos ⟨hmethod, hcode, rfl⟩, Option.bind_some]
          dsimp only
          rcases hdm : srv.dirMap path with _ | ⟨dm, subPath⟩
          · simp [confined_errorPage]
          · dsimp only
            rw [FileSystem.confined_serveDmap]
            simp
        · rw [if_neg fun hno => Option.some_ne_none h hno.2.2]
          exact iff_of_true trivial nofun
    · simp [hmethod, hcode, confined_errorPage]

/-- The web server of mhuxd, and a system with one file. -/
def webServer : HttpServer where
  handlerList := [hsRegisterHandler (chars "/")]
  dirMapList := [⟨chars "/svelte/", chars "/usr/share/mhuxd/webui/svelte"⟩]

def passwdSystem : FileSystem where
  chdir _ := none
  stat dir name := if resolve (resolve [] dir) name = [chars "etc", chars "passwd"] then .ok (0x81a4, 5) else .error .enoent
  openFile _ _ := none
  read _ _ := chars "root
"

/-- The path is what is before the query. -/
def splitUrl : UrlParser := fun url => some (url.takeWhile (· ≠ 0x3f), (url.dropWhile (· ≠ 0x3f)).tail)

/-- Dots lead out of the directory. -/
theorem files_escape : ¬ ∀ (srv : HttpServer) (fs : FileSystem) (parseUrl : UrlParser) (req : HttpRequest),
    (srv.onMessageCompleteCb fs parseUrl req).Confined := by
  intro h
  have hout := h webServer passwdSystem splitUrl ⟨.get, chars "/svelte/../../../../../etc/passwd", 200⟩
  have hopened : (webServer.onMessageCompleteCb passwdSystem splitUrl
      ⟨.get, chars "/svelte/../../../../../etc/passwd", 200⟩).opened =
      some (⟨chars "/svelte/", chars "/usr/share/mhuxd/webui/svelte"⟩, chars "../../../../../etc/passwd") := by
    decide
  rw [HttpAnswer.Confined, hopened] at hout
  revert hout
  decide

/-- An absolute rest of the path does, too. -/
example : (webServer.onMessageCompleteCb passwdSystem splitUrl ⟨.get, chars "/svelte//etc/passwd", 200⟩).opened =
    some (⟨chars "/svelte/", chars "/usr/share/mhuxd/webui/svelte"⟩, chars "/etc/passwd") := by decide

end HttpServer

end Mhuxd
