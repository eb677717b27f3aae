import SecMon.Gui.RequestHandler
import SecMon.Gui.Response

/-!
# What a request is answered

`handle_request` leaves by five ways; on all but one it leaves a reply to be
sent.  `answered` says what is in that reply on each of them, and
`reply_wellFormed` that a client can read it: it has one of three statuses,
declares its length once and rightly, is the whole file when it says so, and
the reader of `Response.lean` gets it back from its buffers.
-/

namespace SecMon.Http

open Reading Buffer

variable {κ : Type}

theorem answered {handler : RequestHandler κ} {files : Bytes → Option Bytes} {req : Request}
    {rep : Reply} {conn : κ} (h : (handler.handleRequest files req rep conn).isStream = false) :
    (handler.handleRequest files req rep conn).rep = .stockReply .badRequest ∨
      (handler.handleRequest files req rep conn).rep = .stockReply .notFound ∨
      ∃ path file extension, (handler.handleRequest files req rep conn).opened = some path ∧
        files path = some file ∧
        (handler.handleRequest files req rep conn).rep = fileReply rep file extension := by
  obtain hout | ⟨decoded, -, -, -, ⟨dir', -, hout⟩ | hout | hout | ⟨file, hfile, hout⟩⟩ :=
    handleRequest_cases handler files req rep conn
  · rw [hout]
    exact .inl rfl
  · rw [hout] at h
    cases h
  · rw [hout]
    exact .inr (.inl rfl)
  · rw [hout]
    exact .inr (.inl rfl)
  · rw [hout]
    exact .inr (.inr ⟨_, file, _, rfl, hfile, rfl⟩)

/-! ### The headers -/

def isContentLength (h : Header) : Bool :=
  h.name.map toLower = (ascii "Content-Length").map toLower

theorem filter_contentHeaders (content type : Bytes) :
    (contentHeaders content type).filter isContentLength =
      [⟨ascii "Content-Length", decimal content.length⟩] := by
  have htype : ¬ (ascii "Content-Type").map toLower = (ascii "Content-Length").map toLower := by
    decide +kernel
  simp [contentHeaders, isContentLength, htype]

theorem contentLength_contentHeaders (content type : Bytes) :
    contentLength (contentHeaders content type) = some content.length := by
  unfold contentLength field contentHeaders
  rw [List.find?_cons_of_pos (by simp)]
  exact readDecimal_decimal content.length

theorem plain_of_mem_contentHeaders {content type : Bytes} (htype : 13 ∉ type) {h : Header}
    (hh : h ∈ contentHeaders content type) : h.Plain := by
  have hnames : ∀ name ∈ [ascii "Content-Length", ascii "Content-Type"],
      ch ':' ∉ name ∧ 13 ∉ name := by decide +kernel
  simp only [contentHeaders, List.mem_cons, List.not_mem_nil, or_false] at hh
  rcases hh with rfl | rfl
  · obtain ⟨hcolon, hcr⟩ := hnames _ List.mem_cons_self
    exact ⟨hcolon, hcr, not_mem_decimal (by decide) _⟩
  · obtain ⟨hcolon, hcr⟩ := hnames _ (List.mem_cons_of_mem _ List.mem_cons_self)
    exact ⟨hcolon, hcr, htype⟩

theorem not_mem_extensionToType (extension : Bytes) : 13 ∉ extensionToType extension := by
  have hall : ∀ m ∈ mappings, (13 : UInt8) ∉ m.2 := by decide +kernel
  have hplain : (13 : UInt8) ∉ ascii "text/plain" := by decide +kernel
  unfold extensionToType
  cases hl : mappings.lookup extension with
  | none => exact hplain
  | some type =>
    obtain ⟨l, r, hm, -⟩ := List.lookup_eq_some_iff.mp hl
    apply hall (extension, type)
    rw [hm]
    exact List.mem_append_right l List.mem_cons_self

/-! ### The reply -/

/-- A reply that a client can read. -/
structure Reply.WellFormed (rep : Reply) : Prop where
  /-- one header says how long the content is -/
  length : ∃ value, rep.headers.filter isContentLength = [⟨ascii "Content-Length", value⟩] ∧
    readDecimal value = some rep.content.length
  /-- and what is sent is read back, all of it -/
  read : readResponse.run (denote rep.toBuffers) =
    some (⟨rep.status.code, rep.headers, rep.content⟩, [])

theorem wellFormed_of_contentHeaders {status : StatusType} {content type : Bytes}
    (htype : 13 ∉ type) : Reply.WellFormed ⟨status, contentHeaders content type, content⟩ := by
  refine ⟨⟨_, filter_contentHeaders content type, readDecimal_decimal _⟩, ?_⟩
  have hread : Reads readResponse
      (denote (Reply.toBuffers ⟨status, contentHeaders content type, content⟩))
      ⟨status.code, contentHeaders content type, content⟩ :=
    reads_response (fun h hh => plain_of_mem_contentHeaders htype hh)
      (contentLength_contentHeaders content type)
  have hall := hread []
  rwa [List.append_nil] at hall

theorem wellFormed_stockReply (status : StatusType) : (Reply.stockReply status).WellFormed := by
  have hhtml : (13 : UInt8) ∉ ascii "text/html" := by decide +kernel
  exact wellFormed_of_contentHeaders hhtml

theorem wellFormed_fileReply (rep : Reply) (file extension : Bytes) :
    (fileReply rep file extension).WellFormed :=
  wellFormed_of_contentHeaders (not_mem_extensionToType extension)

/-- **Replies are well formed and complete.**  Whatever is asked for and
whatever the files are, a reply that starts from a new `Reply` has status 200,
400 or 404, one `Content-Length` with the length of its content, with status
200 the whole file that was opened, and is read back from its buffers. -/
theorem reply_wellFormed (handler : RequestHandler κ) (files : Bytes → Option Bytes)
    (req : Request) (status : StatusType) (conn : κ)
    (h : (handler.handleRequest files req { status := status } conn).isStream = false) :
    let out := handler.handleRequest files req { status := status } conn
    out.rep.status.code ∈ [200, 400, 404] ∧ out.rep.WellFormed ∧
      (out.rep.status = .ok → ∃ path, out.opened = some path ∧ files path = some out.rep.content) := by
  intro out
  rcases answered h with hrep | hrep | ⟨path, file, extension, hopen, hfile, hrep⟩
  · rw [hrep]
    exact ⟨by decide, wellFormed_stockReply _, fun hs => absurd hs (by decide)⟩
  · rw [hrep]
    exact ⟨by decide, wellFormed_stockReply _, fun hs => absurd hs (by decide)⟩
  · have hcontent : (fileReply { status := status } file extension).content = file := by
      show readFile file [] = file
      rw [readFile_eq, List.nil_append]
    rw [hrep]
    refine ⟨List.mem_cons_self, wellFormed_fileReply _ _ _, fun _ => ⟨path, hopen, ?_⟩⟩
    rw [hcontent]
    exact hfile

/-- A file without an extension, in a directory of its own. -/
theorem reply_wellFormed_file :
    let handler : RequestHandler Nat := ⟨ascii "/www", {}⟩
    let files : Bytes → Option Bytes := fun path =>
      if path = ascii "/www/a" then some [1, 13, 10, 2] else none
    let out := handler.handleRequest files { uri := ascii "/a" } {} 0
    (out.rep.status = .ok ∧ out.rep.content = [1, 13, 10, 2]) ∧
      out.rep.status.code ∈ [200, 400, 404] ∧ out.rep.WellFormed ∧
      (out.rep.status = .ok → ∃ path, out.opened = some path ∧ files path = some out.rep.content) :=
  ⟨by decide +kernel, reply_wellFormed _ _ _ .ok _ (by decide +kernel)⟩

end SecMon.Http
