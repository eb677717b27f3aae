import SecMon.Gui.Answer
import SecMon.Gui.Cutting
import SecMon.Gui.Dispatch
import SecMon.Gui.Grammar

/-!
# Fetching

What a client sees of the server.  It sends a request whose uri encodes a path,
cut as the network likes; a connection reads it, and the client reads what the
connection writes.

`Site.respond` says what comes back, as if client and server were one function
of the path.  `fetch` says that this is so: method, version, headers, the
choice of the encoding, the cutting and whatever is sent behind the request
make no difference (a version's numbers are the exact ones here, `Version` is
about those that overflow).  `watch` is the other way a request may end, as the viewer of
a stream.
-/

namespace SecMon.Http

open Reading Buffer RequestParser

/-- What is served: a directory, and what can be read. -/
structure Site where
  docRoot : Bytes
  files : Bytes → Option Bytes

/-- A reply, as it is read. -/
def Reply.response (rep : Reply) : Response := ⟨rep.status.code, rep.headers, rep.content⟩

/-- **What is answered for a path.** -/
def Site.respond (site : Site) (path : Bytes) : Response :=
  if path.head? = some (ch '/') ∧ ¬ascii ".." <:+: path then
    match site.files (site.docRoot ++ addIndex path) with
    | some file =>
      ⟨200, contentHeaders file (extensionToType (extension (addIndex path))), file⟩
    | none => (Reply.stockReply .notFound).response
  else (Reply.stockReply .badRequest).response

variable {κ : Type} {site : Site} {dir : StreamDirectory κ} {path : Bytes} {d : RequestHead}
  {conn : κ}

/-! ### The request -/

/-- A request is read as what it derives, and not beyond its end. -/
theorem parse_render (d : RequestHead) (more : Bytes) :
    parse {} {} (d.render ++ more) = (.yes, more, reading .expectingNewline3 d.request) := by
  rw [parse_eq_run]
  exact (accepts_iff.mpr ⟨d, rfl, rfl⟩).run more

variable (conn) in
theorem drive_render (env : Connection.Environment κ) {pieces : List Bytes} {more : Bytes}
    (hp : ∀ data ∈ pieces, data.length ≤ 8192) (hsent : pieces.flatten = d.render ++ more) :
    let out := env.handler.handleRequest env.files d.request {} conn
    let c := Connection.drive conn env (.start {}) pieces
    c.reading = false ∧ c.handled = [d.request] ∧
      c.writes = if out.isStream then [] else [out.rep.toBuffers] := by
  intro out c
  have hc : c = Connection.handleData conn env (d.render ++ more) {} := by
    rw [← hsent]
    exact Connection.drive_eq rfl hp
  have hparse : ({} : Connection).requestParser.parse {} (d.render ++ more) = _ :=
    parse_render d more
  rw [hc, Connection.handleData, hparse]
  cases hs : (env.handler.handleRequest env.files d.request {} conn).isStream with
  | true => simp [hs]
  | false => simp [out, hs, Connection.writeReply]

/-- What may stand in a uri. -/
def isPlain (b : UInt8) : Bool := ¬IsControl b ∧ b ≠ ch ' '

theorem plain_percentEncode (path : Bytes) :
    ∀ b ∈ percentEncode isPlain path, ¬IsControl b ∧ b ≠ ch ' ' := by
  have hpercent : isPlain (ch '%') = true := by decide
  have hhex : ∀ n < 16, isPlain (hexChar n) = true := by decide
  suffices h : ∀ b ∈ percentEncode isPlain path, isPlain b = true from
    fun b hb => of_decide_eq_true (h b hb)
  induction path with
  | nil => simp [percentEncode]
  | cons b path ih =>
    rw [percentEncode]
    split_ifs with hkeep
    · exact List.forall_mem_cons.mpr ⟨hkeep.1, ih⟩
    · have hlt := b.toNat_lt
      exact List.forall_mem_cons.mpr ⟨hpercent, List.forall_mem_cons.mpr
        ⟨hhex _ (by omega), List.forall_mem_cons.mpr ⟨hhex _ (by omega), ih⟩⟩⟩

/-- **Every path can be asked for.** -/
def RequestHead.get (path : Bytes) : RequestHead where
  method := ascii "GET"
  uri := percentEncode isPlain path
  major := ascii "1"
  minor := ascii "1"
  headers := []
  method_ne := by decide
  method_token := by decide +kernel
  uri_plain := plain_percentEncode path
  major_ne := by decide
  major_decimal := by decide +kernel
  minor_ne := by decide
  minor_decimal := by decide +kernel

/-! ### Files -/

variable (site dir d conn) in
/-- The handler answers as the site does, where it is not asked for a stream. -/
theorem handleRequest_eq (huri : urlDecode d.request.uri = some path)
    (hnul : 0 ∉ site.docRoot ++ addIndex path) (hext : extension (addIndex path) ≠ ascii "mjpeg") :
    let out := (RequestHandler.mk site.docRoot dir).handleRequest site.files d.request {} conn
    out.isStream = false ∧ out.rep.WellFormed ∧ out.rep.response = site.respond path ∧
      out.streamDirectory = dir := by
  intro out
  by_cases hsafe : path.head? = some (ch '/') ∧ ¬ascii ".." <:+: path
  · have hguard : ¬(path = [] ∨ path.head? ≠ some (ch '/') ∨ find (ascii "..") path ≠ none) := by
      rw [not_or, not_or, not_not, not_not, find_eq_none]
      refine ⟨?_, hsafe⟩
      rintro rfl
      cases hsafe.1
    have hpath : cString (site.docRoot ++ addIndex path) = site.docRoot ++ addIndex path :=
      cString_of_not_mem hnul
    rw [Site.respond, if_pos hsafe]
    cases hfile : site.files (site.docRoot ++ addIndex path) with
    | none =>
      have hout : out = ⟨false, .stockReply .notFound, dir,
          some (site.docRoot ++ addIndex path)⟩ := by
        simp only [out, RequestHandler.handleRequest, huri, if_neg hguard, if_neg hext, hpath, hfile]
      rw [hout]
      exact ⟨rfl, wellFormed_stockReply _, rfl, rfl⟩
    | some file =>
      have hout : out = ⟨false, fileReply {} file (extension (addIndex path)), dir,
          some (site.docRoot ++ addIndex path)⟩ := by
        simp only [out, RequestHandler.handleRequest, huri, if_neg hguard, if_neg hext, hpath, hfile]
      rw [hout]
      refine ⟨rfl, wellFormed_fileReply _ _ _, ?_, rfl⟩
      show Response.mk 200 (contentHeaders (readFile file []) _) (readFile file []) = _
      rw [readFile_eq, List.nil_append]
  · have hguard : path = [] ∨ path.head? ≠ some (ch '/') ∨ find (ascii "..") path ≠ none := by
      rw [not_and_or, not_not, ← not_not (a := ascii ".." <:+: path), ← find_eq_none] at hsafe
      exact .inr hsafe
    have hout : out = ⟨false, .stockReply .badRequest, dir, none⟩ := by
      simp only [out, RequestHandler.handleRequest, huri, if_pos hguard]
    rw [Site.respond, if_neg hsafe, hout]
    exact ⟨rfl, wellFormed_stockReply _, rfl, rfl⟩

/-- **A client gets what is on the site.**  Whatever the request is besides its
path, however the path is encoded and the request cut, one reply is written,
and a client that reads it finds the response for the path, and nothing
behind it. -/
theorem fetch (hp : Encodes d.uri path) (hnul : 0 ∉ site.docRoot ++ addIndex path)
    (hext : extension (addIndex path) ≠ ascii "mjpeg") {pieces : List Bytes} {more : Bytes}
    (hsize : ∀ data ∈ pieces, data.length ≤ 8192) (hsent : pieces.flatten = d.render ++ more) :
    let c := Connection.drive conn ⟨⟨site.docRoot, dir⟩, site.files⟩ (.start {}) pieces
    ∃ w bytes, c.writes = [w] ∧ transmit c.deref w = some bytes ∧
      readResponse.run bytes = some (site.respond path, []) := by
  intro c
  obtain ⟨hstream, hwell, hresponse, -⟩ := handleRequest_eq site dir d conn
    (urlDecode_of_encodes hp) hnul hext
  obtain ⟨-, -, hwrites⟩ := drive_render conn ⟨⟨site.docRoot, dir⟩, site.files⟩
    hsize hsent
  rw [hstream, if_neg Bool.false_ne_true] at hwrites
  obtain ⟨n, hn⟩ := Connection.exec_drive conn ⟨⟨site.docRoot, dir⟩, site.files⟩ (.start {}) pieces
  refine ⟨_, _, hwrites, Connection.transmits hn (hwrites ▸ List.mem_singleton_self _), ?_⟩
  rw [← hresponse]
  exact hwell.read

/-- A page whose name has a blank in it, in two pieces. -/
theorem fetch_page :
    let site : Site := ⟨ascii "/www", fun path =>
      if path = ascii "/www/a b.html" then some [1, 13, 10] else none⟩
    let sent := (RequestHead.get (ascii "/a b.html")).render ++ ascii "more"
    let c := Connection.drive 0 ⟨⟨site.docRoot, {}⟩, site.files⟩ (.start {})
      [sent.take 7, sent.drop 7]
    ∃ w bytes, c.writes = [w] ∧ transmit c.deref w = some bytes ∧
      readResponse.run bytes = some (site.respond (ascii "/a b.html"), []) := by
  intro site sent
  have hsent : [sent.take 7, sent.drop 7].flatten = sent := by
    rw [List.flatten_cons, List.flatten_cons, List.flatten_nil, List.append_nil,
      List.take_append_drop]
  have hsize : ∀ data ∈ [sent.take 7, sent.drop 7], data.length ≤ 8192 := by decide +kernel
  exact fetch (encodes_percentEncode isPlain _) (by decide +kernel) (by decide +kernel) hsize hsent

/-! ### Streams -/

section

variable {k n : Nat}

/-- The path of a stream passes the guards, and has the extension. -/
theorem StreamPath.guards (h : StreamPath path k) :
    path.head? = some (ch '/') ∧ ¬ascii ".." <:+: path ∧ addIndex path = path ∧
      extension path = ascii "mjpeg" := by
  obtain ⟨ds, ⟨_, hds⟩, _, rfl⟩ := h
  have hno : ∀ b, decDigit b = none → b ∉ ds := by
    intro b hb hmem
    have hsome := hds b hmem
    rw [hb] at hsome
    cases hsome
  have hlast : (ch '/' :: (ds ++ ascii ".mjpeg")).getLast? = some (ch 'g') := by
    rw [show ascii ".mjpeg" = ascii ".mjpe" ++ [ch 'g'] from rfl, ← List.append_assoc,
      ← List.cons_append, List.getLast?_concat]
  have hext : extension (ch '/' :: (ds ++ ascii ".mjpeg")) = ascii "mjpeg" :=
    extension_of_dot (l := []) (hno _ (by decide)) (by decide) (by decide)
  refine ⟨rfl, fun hinfix => ?_, ?_, hext⟩
  · -- there is one dot
    have hcount := hinfix.sublist.count_le (ch '.')
    rw [List.count_cons, List.count_append, List.count_eq_zero.mpr (hno (ch '.') (by decide))]
      at hcount
    exact absurd hcount (by decide)
  · rw [addIndex, hlast, if_neg (by decide)]

variable (conn) in
theorem handleValidStream_of_streamPath (hdir : dir.Numbered n) (h : StreamPath path k)
    (hmax : n ≤ 2147483647) :
    dir.handleValidStream path conn =
      if 1 ≤ k ∧ k ≤ n then some (dir.registerNth k conn) else none := by
  obtain ⟨ds, hds, hval, rfl⟩ := h
  split_ifs with hk
  · refine handleValidStream_of_stoi conn hdir hk.1 hk.2 ?_
    exact (stoi_eq_some_iff hk.1).mpr
      ⟨(beginsWith_iff_of_isNumber hds).mpr hval, hk.2.trans hmax⟩
  · by_contra hne
    obtain ⟨j, hj, hjn, hstoi⟩ := exists_of_handleValidStream hdir hne
    have hbegins := ((stoi_eq_some_iff hj).mp hstoi).1
    rw [beginsWith_iff_of_isNumber hds, hval] at hbegins
    exact hk ⟨hbegins ▸ hj, hbegins ▸ hjn⟩

variable (d conn) in
theorem handleRequest_of_streamPath (hdir : dir.Numbered n) (hmax : n ≤ 2147483647)
    (hp : Encodes d.uri path) (h : StreamPath path k) (docRoot : Bytes)
    (files : Bytes → Option Bytes) :
    (RequestHandler.mk docRoot dir).handleRequest files d.request {} conn =
      if 1 ≤ k ∧ k ≤ n then ⟨true, {}, dir.registerNth k conn, none⟩
      else ⟨false, .stockReply .notFound, dir, none⟩ := by
  obtain ⟨hhead, hdots, hindex, hext⟩ := h.guards
  have hguard : ¬(path = [] ∨ path.head? ≠ some (ch '/') ∨ find (ascii "..") path ≠ none) := by
    rw [not_or, not_or, not_not, not_not, find_eq_none]
    refine ⟨?_, hhead, hdots⟩
    rintro rfl
    cases hhead
  have huri : urlDecode d.request.uri = some path := urlDecode_of_encodes hp
  have hdispatch := handleValidStream_of_streamPath conn hdir h hmax
  split_ifs at hdispatch ⊢ <;>
    simp only [RequestHandler.handleRequest, huri, if_neg hguard, hindex, if_pos hext, hdispatch]

variable (conn) in
/-- **A client becomes a viewer** of the stream whose number it asks for, if there
is one, and is told that nothing was found if there is none. -/
theorem watch (hdir : dir.Numbered n) (hmax : n ≤ 2147483647) (hp : Encodes d.uri path)
    (h : StreamPath path k) {docRoot : Bytes} {files : Bytes → Option Bytes} {pieces : List Bytes}
    {more : Bytes} (hsize : ∀ data ∈ pieces, data.length ≤ 8192)
    (hsent : pieces.flatten = d.render ++ more) :
    let out := (RequestHandler.mk docRoot dir).handleRequest files d.request {} conn
    let c := Connection.drive conn ⟨⟨docRoot, dir⟩, files⟩ (.start {}) pieces
    c.handled = [d.request] ∧
      if 1 ≤ k ∧ k ≤ n then
        out.isStream = true ∧ out.streamDirectory = dir.registerNth k conn ∧ c.writes = []
      else
        out.streamDirectory = dir ∧
          c.writes = [(Reply.stockReply .notFound).toBuffers] := by
  intro out c
  obtain ⟨-, hhandled, hwrites⟩ := drive_render conn ⟨⟨docRoot, dir⟩, files⟩ hsize hsent
  replace hwrites : c.writes = if out.isStream then [] else [out.rep.toBuffers] := hwrites
  have hout : out = _ := handleRequest_of_streamPath d conn hdir hmax hp h docRoot files
  refine ⟨hhandled, ?_⟩
  split_ifs at hout ⊢
  · rw [hout] at hwrites ⊢
    exact ⟨rfl, rfl, hwrites⟩
  · rw [hout] at hwrites ⊢
    exact ⟨rfl, hwrites⟩

end

end SecMon.Http
