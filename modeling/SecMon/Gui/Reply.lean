import SecMon.Core.Buffer
import SecMon.Gui.Text

/-!
# Replies

`GUI/Reply.h`, `GUI/Reply.cpp` and `GUI/MimeTypes.cpp`.  `toBuffers` copies
nothing: each of its buffers refers to a constant text of the program or to a
field of the reply, which a `ReplyRef` names.
-/

namespace SecMon.Http

open SecMon.Buffer

/-- `Reply::status_type`. -/
inductive StatusType
  | ok
  | created
  | accepted
  | noContent
  | multipleChoices
  | movedPermanently
  | movedTemporarily
  | notModified
  | badRequest
  | unauthorized
  | forbidden
  | notFound
  | internalServerError
  | notImplemented
  | badGateway
  | serviceUnavailable
  deriving DecidableEq, Repr

/-- The number of a status. -/
def StatusType.code : StatusType → Nat
  | ok => 200
  | created => 201
  | accepted => 202
  | noContent => 204
  | multipleChoices => 300
  | movedPermanently => 301
  | movedTemporarily => 302
  | notModified => 304
  | badRequest => 400
  | unauthorized => 401
  | forbidden => 403
  | notFound => 404
  | internalServerError => 500
  | notImplemented => 501
  | badGateway => 502
  | serviceUnavailable => 503

/-- `status_strings::to_buffer`. -/
def StatusType.statusString : StatusType → Bytes
  | ok => ascii "HTTP/1.0 200 OK\r\n"
  | created => ascii "HTTP/1.0 201 Created\r\n"
  | accepted => ascii "HTTP/1.0 202 Accepted\r\n"
  | noContent => ascii "HTTP/1.0 204 No Content\r\n"
  | multipleChoices => ascii "HTTP/1.0 300 Multiple Choices\r\n"
  | movedPermanently => ascii "HTTP/1.0 301 Moved Permanently\r\n"
  | movedTemporarily => ascii "HTTP/1.0 302 Moved Temporarily\r\n"
  | notModified => ascii "HTTP/1.0 304 Not Modified\r\n"
  | badRequest => ascii "HTTP/1.0 400 Bad Request\r\n"
  | unauthorized => ascii "HTTP/1.0 401 Unauthorized\r\n"
  | forbidden => ascii "HTTP/1.0 403 Forbidden\r\n"
  | notFound => ascii "HTTP/1.0 404 Not Found\r\n"
  | internalServerError => ascii "HTTP/1.0 500 Internal Server Error\r\n"
  | notImplemented => ascii "HTTP/1.0 501 Not Implemented\r\n"
  | badGateway => ascii "HTTP/1.0 502 Bad Gateway\r\n"
  | serviceUnavailable => ascii "HTTP/1.0 503 Service Unavailable\r\n"

/-- A page with a title and a heading, as every stock reply but one is. -/
def stockPage (title heading : String) : Bytes :=
  ascii "<html><head><title>" ++ ascii title ++ ascii "</title></head><body><h1>" ++
    ascii heading ++ ascii "</h1></body></html>"

/-- `stock_replies::to_string`. -/
def StatusType.stockContent : StatusType → Bytes
  | ok => []
  | created => stockPage "Created" "201 Created"
  | accepted => stockPage "Accepted" "202 Accepted"
  | noContent => stockPage "No Content" "204 Content"
  | multipleChoices => stockPage "Multiple Choices" "300 Multiple Choices"
  | movedPermanently => stockPage "Moved Permanently" "301 Moved Permanently"
  | movedTemporarily => stockPage "Moved Temporarily" "302 Moved Temporarily"
  | notModified => stockPage "Not Modified" "304 Not Modified"
  | badRequest => stockPage "Bad Request" "400 Bad Request"
  | unauthorized => stockPage "Unauthorized" "401 Unauthorized"
  | forbidden => stockPage "Forbidden" "403 Forbidden"
  | notFound => stockPage "Not Found" "404 Not Found"
  | internalServerError => stockPage "Internal Server Error" "500 Internal Server Error"
  | notImplemented => stockPage "Not Implemented" "501 Not Implemented"
  | badGateway => stockPage "Bad Gateway" "502 Bad Gateway"
  | serviceUnavailable => stockPage "Service Unavailable" "503 Service Unavailable"

/-- `Reply`.  A new one has no status yet in the source; here it is `ok`. -/
structure Reply where
  status : StatusType := .ok
  headers : List Header := []
  content : Bytes := []
  deriving DecidableEq, Repr

/-- What a buffer of a reply refers to. -/
inductive ReplyRef
  | text (bytes : Bytes)
  | name (i : Nat)
  | value (i : Nat)
  | content
  deriving DecidableEq, Repr

/-- What stands there. -/
def Reply.deref (rep : Reply) : ReplyRef → Option Bytes
  | .text bytes => some bytes
  | .name i => rep.headers[i]?.map (·.name)
  | .value i => rep.headers[i]?.map (·.value)
  | .content => some rep.content

/-- A buffer on a constant text. -/
def textBuffer (bytes : Bytes) : ConstBuffer ReplyRef UInt8 := ⟨.text bytes, bytes⟩

/-- `misc_strings::crlf`. -/
def Reply.crlf : Bytes := [13, 10]

/-- `misc_strings::name_value_separator`. -/
def Reply.nameValueSeparator : Bytes := [ch ':', ch ' ']

/-- The buffers of one header. -/
def headerBuffers (i : Nat) (h : Header) : List (ConstBuffer ReplyRef UInt8) :=
  [⟨.name i, h.name⟩, textBuffer Reply.nameValueSeparator, ⟨.value i, h.value⟩, textBuffer Reply.crlf]

/-- `Reply::to_buffers`. -/
def Reply.toBuffers (rep : Reply) : List (ConstBuffer ReplyRef UInt8) :=
  textBuffer rep.status.statusString ::
    (rep.headers.mapIdx headerBuffers).flatten ++
    [textBuffer Reply.crlf, ⟨.content, rep.content⟩]

/-- The two headers that `stock_reply` and `handle_request` write. -/
def contentHeaders (content type : Bytes) : List Header :=
  [⟨ascii "Content-Length", decimal content.length⟩, ⟨ascii "Content-Type", type⟩]

/-- `Reply::stock_reply`. -/
def Reply.stockReply (status : StatusType) : Reply where
  status := status
  headers := contentHeaders status.stockContent (ascii "text/html")
  content := status.stockContent

/-- `mime_types::mappings`. -/
def mappings : List (Bytes × Bytes) :=
  [(ascii "gif", ascii "image/gif"), (ascii "htm", ascii "text/html"),
    (ascii "html", ascii "text/html"), (ascii "json", ascii "application/json"),
    (ascii "jpg", ascii "image/jpeg"), (ascii "png", ascii "image/png"),
    (ascii "css", ascii "text/css"),
    (ascii "mjpeg", ascii "multipart/x-mixed-replace;boundary=<>")]

/-- `mime_types::extension_to_type`. -/
def extensionToType (extension : Bytes) : Bytes :=
  (mappings.lookup extension).getD (ascii "text/plain")

/-- **The buffers of a reply refer to that reply.**  They stay good as long as
the reply is alive and unchanged. -/
theorem intact_toBuffers (rep : Reply) : Intact rep.deref rep.toBuffers := by
  intro b hb
  unfold Reply.toBuffers at hb
  rcases List.mem_append.mp hb with hb | hb
  · rcases List.mem_cons.mp hb with rfl | hb
    · rfl
    · obtain ⟨l, hl, hbl⟩ := List.mem_flatten.mp hb
      obtain ⟨i, hi, rfl⟩ := List.mem_mapIdx.mp hl
      have hget : rep.headers[i]? = some rep.headers[i] := List.getElem?_eq_getElem hi
      simp only [headerBuffers, List.mem_cons, List.not_mem_nil, or_false] at hbl
      rcases hbl with rfl | rfl | rfl | rfl <;> simp [Reply.deref, textBuffer, hget]
  · simp only [List.mem_cons, List.not_mem_nil, or_false] at hb
    rcases hb with rfl | rfl <;> rfl

end SecMon.Http
