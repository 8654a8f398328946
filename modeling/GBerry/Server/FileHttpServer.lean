import GBerry.Common.Paths
import GBerry.Common.QString
import GBerry.Foundation.Path

/-!
# The file server

`FileHttpServer::handleRequest` joins the path of a request to the root
directory and opens what comes out.  The join leaves an absolute path as it is,
that of a resource too, and does not resolve `..`.
-/

namespace GBerry.Server

open GBerry.Foundation GBerry.Common

structure AbsoluteDir where
  path : String
  absolute : path.toList.head? = some '/'

def joinpath (appDir : AbsoluteDir) (path : String) : String := Path.filePath appDir.path path

def suffix (fileName : String) : String :=
  match QString.split ((QString.split fileName '/').getLastD "") '.' with
  | _ :: part :: parts => (part :: parts).getLastD ""
  | _ => ""

inductive ResponseCall (β : Type) where
  | writeHead (code : Nat)
  | setHeader (name value : String)
  | end' (data : β)

structure FileHttpServer where
  rootDir : AbsoluteDir

namespace FileHttpServer

/-- The text that the pattern `^/(.+)$` captures; its dot matches every character. -/
def captured (path : String) : Option String :=
  match path.toList with
  | '/' :: c :: rest => some (String.ofList (c :: rest))
  | _ => none

variable {β : Type} [QByteArray β]

def contentType (fileName : String) : List (ResponseCall β) :=
  if suffix fileName = "html" then [.setHeader "Content-Type" "text/html"]
  else if suffix fileName = "txt" then [.setHeader "Content-Type" "text/plain"]
  else if suffix fileName = "apk" then [.setHeader "Content-Type" "application/octet-stream"]
  else if suffix fileName = "zip" then [.setHeader "Content-Type" "application/zip"]
  else []

/--
The paths that a request tries to open, and the response.  `contents` is what
can be read of a file, and `none` when it cannot be opened.
-/
def handleRequest (server : FileHttpServer) (contents : String → Option β) (path : String) :
    List String × List (ResponseCall β) :=
  match captured path with
  | some name =>
      let file := joinpath server.rootDir name
      match contents file with
      | none =>
          ([file], [.writeHead 404, .setHeader "Content-Type" "text/plain",
            .end' (QByteArray.toLatin1 ("Failed to find " ++ name))])
      | some data => ([file], .writeHead 200 :: contentType file ++ [.end' data])
  | none =>
      let indexFile := joinpath server.rootDir "index.html"
      match contents indexFile with
      | none =>
          ([indexFile], [.setHeader "Content-Type" "text/html", .writeHead 404,
            .end' (QByteArray.toLatin1 "Failed to open index.html")])
      | some data =>
          ([indexFile], [.setHeader "Content-Type" "text/html", .writeHead 200, .end' data])

/-! ## Inside the root directory -/

def parts (path : String) : List String := QString.split path '/'

def resolve (path : String) : List String := walk [] (parts path)

/-- A resource of the program is in no directory. -/
def isResource (path : String) : Bool := path.toList.head? = some ':'

def Inside (dir : AbsoluteDir) (path : String) : Prop :=
  isResource path = false ∧ resolve dir.path <+: resolve path

instance (dir : AbsoluteDir) (path : String) : Decidable (Inside dir path) :=
  inferInstanceAs (Decidable (isResource path = false ∧ resolve dir.path <+: resolve path))

/-- What is opened lies inside the root directory, or nothing is and the answer is 404. -/
def StaysInside (server : FileHttpServer) (contents : String → Option β) (path : String) :
    Prop :=
  (∀ file ∈ (server.handleRequest contents path).1, Inside server.rootDir file) ∧
    ((server.handleRequest contents path).1 = [] →
      ∃ code ∈ (server.handleRequest contents path).2, code = .writeHead 404)

/--
The captured text names no resource, and leads up `n` times and then down: the
first names are the last `n` names of the root directory, and all names of it when
the text is an absolute path.
-/
def LeadsInside (rootDir : AbsoluteDir) (name : String) : Prop :=
  isResource name = false ∧
    if name.toList.head? = some '/' then resolve rootDir.path <+: (climb (parts name)).2
    else (resolve rootDir.path).rtake (climb (parts name)).1 <+: (climb (parts name)).2

section

variable {rootDir : AbsoluteDir} {dirPath name : String}

theorem resolve_slash : resolve (dirPath ++ "/" ++ name) =
    walk (resolve dirPath) (parts name) := by
  have hparts : parts (dirPath ++ "/" ++ name) = parts dirPath ++ parts name := by
    simp [parts, QString.split, List.splitOn_append_cons_self]
  rw [resolve, hparts, walk_append]
  rfl

theorem resolve_empty : resolve (dirPath ++ "/") = resolve dirPath := by
  have hslash : resolve (dirPath ++ "/" ++ "") = walk (resolve dirPath) (parts "") :=
    resolve_slash
  rwa [String.append_empty] at hslash

theorem resolve_filePath (hdir : dirPath ≠ "") (h : Path.isAbsolutePath name = false) :
    resolve (Path.filePath dirPath name) = walk (resolve dirPath) (parts name) := by
  unfold Path.filePath
  rw [if_neg (by simp [h])]
  split
  · rename_i hempty
    rw [hempty]
    rfl
  split
  · rename_i hempty
    have hslash := hempty.resolve_left hdir
    obtain ⟨front, hfront⟩ : ∃ front : String, dirPath = front ++ "/" := by
      refine ⟨String.ofList dirPath.toList.dropLast, String.toList_inj.mp ?_⟩
      rw [String.toList_append, String.toList_ofList]
      exact (List.dropLast_append_getLast? '/' hslash).symm
    rw [hfront, resolve_slash, resolve_empty]
  · exact resolve_slash

theorem isResource_joinpath (h : isResource name = false) :
    isResource (joinpath rootDir name) = false := by
  have hdir (s : String) : isResource (rootDir.path ++ s) = false := by
    simp [isResource, List.head?_append, rootDir.absolute]
  unfold joinpath Path.filePath
  split
  · exact h
  split
  · simp [isResource, rootDir.absolute]
  split
  · exact hdir name
  · rw [String.append_assoc]
    exact hdir _

theorem inside_joinpath_iff (rootDir : AbsoluteDir) (name : String) :
    Inside rootDir (joinpath rootDir name) ↔ LeadsInside rootDir name := by
  unfold Inside LeadsInside
  by_cases hresource : isResource name = true
  · have habsolute : Path.isAbsolutePath name = true := by
      simp_all [isResource, Path.isAbsolutePath]
    rw [joinpath, Path.filePath_absolute habsolute]
    simp [hresource]
  rw [Bool.not_eq_true] at hresource
  rw [and_iff_right hresource, and_iff_right (isResource_joinpath hresource)]
  split
  · rename_i hslash
    have habsolute : Path.isAbsolutePath name = true := by simp [Path.isAbsolutePath, hslash]
    rw [joinpath, Path.filePath_absolute habsolute, resolve, resolve, walk_eq [] (parts name)]
    simp
  · rename_i hslash
    have hrelative : Path.isAbsolutePath name = false := by
      simp_all [isResource, Path.isAbsolutePath]
    have hdir : rootDir.path ≠ "" := by
      intro hempty
      have habsolute := rootDir.absolute
      simp [hempty] at habsolute
    rw [joinpath, resolve_filePath hdir hrelative, prefix_walk_iff]

end

theorem opened (server : FileHttpServer) (contents : String → Option β) (path : String) :
    (server.handleRequest contents path).1 =
      [joinpath server.rootDir ((captured path).getD "index.html")] := by
  unfold handleRequest
  split
  · rename_i name hname
    rw [hname]
    simp only
    split <;> rfl
  · rename_i hname
    rw [hname]
    simp only
    split <;> rfl

/-- A request stays inside exactly when the text it names leads there. -/
theorem staysInside_iff (server : FileHttpServer) (contents : String → Option β)
    (path : String) :
    server.StaysInside contents path ↔
      ∀ name ∈ captured path, LeadsInside server.rootDir name := by
  have hinside : server.StaysInside contents path ↔
      LeadsInside server.rootDir ((captured path).getD "index.html") := by
    rw [StaysInside, opened, ← inside_joinpath_iff]
    simp
  rw [hinside]
  cases hname : captured path with
  | some name => simp
  | none =>
      refine iff_of_true ?_ nofun
      have hclimb : climb (parts "index.html") = (0, ["index.html"]) := by decide +kernel
      rw [Option.getD_none, LeadsInside, if_neg (by decide +kernel), hclimb, List.rtake_zero]
      exact ⟨by decide +kernel, List.nil_prefix⟩

def documentRoot : FileHttpServer := ⟨"/srv/www", rfl⟩

theorem parentDirectory_escapes :
    ¬ ∀ (server : FileHttpServer) (contents : String → Option Text) (path : String),
      server.StaysInside contents path := by
  intro h
  have hinside := (h documentRoot (fun _ => none) "/../secret.txt").1
    "/srv/www/../secret.txt" (by decide +kernel)
  revert hinside
  decide +kernel

end FileHttpServer

end GBerry.Server
