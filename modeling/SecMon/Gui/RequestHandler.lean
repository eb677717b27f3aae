import SecMon.Gui.Reply
import SecMon.Gui.StreamDirectory

/-!
# The request handler

`GUI/RequestHandler.cpp`.  The file system is a function from the paths that
can be opened to what is read there; a path is the C string that `ifstream` is
given, so a path with a NUL in it names the file before the NUL.  Which path
`handle_request` opened, if it came to that, is part of its `Outcome`.
-/

namespace SecMon.Http

/-- `RequestHandler::url_decode`; `none` for an invalid encoding. -/
def urlDecode : Bytes → Option Bytes
  | [] => some []
  | b :: s =>
    if b = ch '%' then
      match s with
      | x :: y :: rest =>
        (readHex [x, y]).bind fun value => (urlDecode rest).map (toChar value :: ·)
      | _ => none
    else if b = ch '+' then (urlDecode s).map (ch ' ' :: ·)
    else (urlDecode s).map (b :: ·)

/-- The loop over `is.read(buf, 512)`, which ends when nothing was read. -/
def readLoop : Nat → Bytes → Bytes → Bytes
  | 0, _, content => content
  | fuel + 1, file, content =>
    if (file.take 512).length > 0 then readLoop fuel (file.drop 512) (content ++ file.take 512)
    else content

/-- The whole file: each round but the last reads something. -/
def readFile (file content : Bytes) : Bytes := readLoop (file.length + 1) file content

/-- The file extension: what follows the last dot, if that is in the last
component. -/
def extension (requestPath : Bytes) : Bytes :=
  match findLastOf (ch '.') requestPath, findLastOf (ch '/') requestPath with
  | some lastDotPos, some lastSlashPos =>
    if lastDotPos > lastSlashPos then requestPath.drop (lastDotPos + 1) else []
  | _, _ => []

/-- "If path ends in slash then add index.html." -/
def addIndex (requestPath : Bytes) : Bytes :=
  if requestPath.getLast? = some (ch '/') then requestPath ++ ascii "index.html" else requestPath

/-- `RequestHandler`. -/
structure RequestHandler (κ : Type) where
  docRoot : Bytes
  streamDirectory : StreamDirectory κ

/-- What `handle_request` returns, what it leaves behind, and what it opened. -/
structure Outcome (κ : Type) where
  isStream : Bool
  rep : Reply
  streamDirectory : StreamDirectory κ
  opened : Option Bytes := none

/-- The reply to a file that could be opened. -/
def fileReply (rep : Reply) (file extension : Bytes) : Reply where
  status := .ok
  headers := contentHeaders (readFile file rep.content) (extensionToType extension)
  content := readFile file rep.content

/-- `RequestHandler::handle_request`. -/
def RequestHandler.handleRequest {κ : Type} (handler : RequestHandler κ)
    (files : Bytes → Option Bytes) (req : Request) (rep : Reply) (conn : κ) : Outcome κ :=
  let dir := handler.streamDirectory
  match urlDecode req.uri with
  | none => ⟨false, .stockReply .badRequest, dir, none⟩
  | some decoded =>
    -- "Request path must be absolute and not contain '..'."
    if decoded = [] ∨ decoded.head? ≠ some (ch '/') ∨ find (ascii "..") decoded ≠ none then
      ⟨false, .stockReply .badRequest, dir, none⟩
    else
      let requestPath := addIndex decoded
      if extension requestPath = ascii "mjpeg" then
        match dir.handleValidStream requestPath conn with
        | some dir' => ⟨true, rep, dir', none⟩
        | none => ⟨false, .stockReply .notFound, dir, none⟩
      else
        let fullPath := cString (handler.docRoot ++ requestPath)
        match files fullPath with
        | none => ⟨false, .stockReply .notFound, dir, some fullPath⟩
        | some file => ⟨false, fileReply rep file (extension requestPath), dir, some fullPath⟩

theorem readLoop_eq {fuel : Nat} {file : Bytes} (content : Bytes) (h : file.length < fuel) :
    readLoop fuel file content = content ++ file := by
  induction fuel generalizing file content with
  | zero => omega
  | succ fuel ih =>
    unfold readLoop
    by_cases hlen : (file.take 512).length > 0
    · have hdrop : (file.drop 512).length < fuel := by
        rw [List.length_take] at hlen
        rw [List.length_drop]
        omega
      rw [if_pos hlen, ih (content ++ file.take 512) hdrop, List.append_assoc,
        List.take_append_drop]
    · have hnil : file = [] := by
        rw [List.length_take] at hlen
        exact List.length_eq_zero_iff.mp (by omega)
      rw [if_neg hlen, hnil, List.append_nil]

/-- **A file is read to its end**, whatever its length. -/
theorem readFile_eq (file content : Bytes) : readFile file content = content ++ file :=
  readLoop_eq content (Nat.lt_succ_self file.length)

/-- **The five ways out of `handle_request`.** -/
theorem handleRequest_cases {κ : Type} (handler : RequestHandler κ)
    (files : Bytes → Option Bytes) (req : Request) (rep : Reply) (conn : κ) :
    let out := handler.handleRequest files req rep conn
    out = ⟨false, .stockReply .badRequest, handler.streamDirectory, none⟩ ∨
    ∃ decoded, urlDecode req.uri = some decoded ∧ decoded.head? = some (ch '/') ∧
      ¬ascii ".." <:+: decoded ∧
      ((∃ dir', handler.streamDirectory.handleValidStream (addIndex decoded) conn = some dir' ∧
          out = ⟨true, rep, dir', none⟩) ∨
        out = ⟨false, .stockReply .notFound, handler.streamDirectory, none⟩ ∨
        out = ⟨false, .stockReply .notFound, handler.streamDirectory,
          some (cString (handler.docRoot ++ addIndex decoded))⟩ ∨
        ∃ file, files (cString (handler.docRoot ++ addIndex decoded)) = some file ∧
          out = ⟨false, fileReply rep file (extension (addIndex decoded)),
            handler.streamDirectory, some (cString (handler.docRoot ++ addIndex decoded))⟩) := by
  dsimp only
  unfold RequestHandler.handleRequest
  cases hd : urlDecode req.uri with
  | none => exact Or.inl rfl
  | some decoded =>
    dsimp only
    by_cases hbad : decoded = [] ∨ decoded.head? ≠ some (ch '/') ∨ find (ascii "..") decoded ≠ none
    · rw [if_pos hbad]
      exact Or.inl rfl
    rw [if_neg hbad]
    rw [not_or, not_or, not_not, not_not, find_eq_none] at hbad
    refine Or.inr ⟨decoded, rfl, hbad.2.1, hbad.2.2, ?_⟩
    by_cases hext : extension (addIndex decoded) = ascii "mjpeg"
    · rw [if_pos hext]
      cases handler.streamDirectory.handleValidStream (addIndex decoded) conn with
      | some dir' => exact Or.inl ⟨dir', rfl, rfl⟩
      | none => exact Or.inr (Or.inl rfl)
    · rw [if_neg hext]
      cases files (cString (handler.docRoot ++ addIndex decoded)) with
      | none => exact Or.inr (Or.inr (Or.inl rfl))
      | some file => exact Or.inr (Or.inr (Or.inr ⟨file, rfl, rfl⟩))

/-- What is known where a file is opened: the guards were passed. -/
theorem opened_eq_some {κ : Type} {handler : RequestHandler κ} {files : Bytes → Option Bytes}
    {req : Request} {rep : Reply} {conn : κ} {path : Bytes}
    (h : (handler.handleRequest files req rep conn).opened = some path) :
    ∃ decoded, urlDecode req.uri = some decoded ∧ decoded.head? = some (ch '/') ∧
      ¬ ascii ".." <:+: decoded ∧ path = cString (handler.docRoot ++ addIndex decoded) := by
  obtain hout | ⟨decoded, hd, hhead, hdots, ⟨dir', -, hout⟩ | hout | hout | ⟨file, -, hout⟩⟩ :=
    handleRequest_cases handler files req rep conn
  · rw [hout] at h
    cases h
  · rw [hout] at h
    cases h
  · rw [hout] at h
    cases h
  · rw [hout] at h
    exact ⟨decoded, hd, hhead, hdots, (Option.some.inj h).symm⟩
  · rw [hout] at h
    exact ⟨decoded, hd, hhead, hdots, (Option.some.inj h).symm⟩

end SecMon.Http
