import SecMon.Gui.Response
import SecMon.Gui.StreamConnection

/-!
# Reading a stream

What a viewer is sent is a header block and then, for each image, a delimiter
line, headers and the bytes of the image.  `readStream` is a reader of that
format: the delimiter is the text that the `Content-Type` of the header block
declares as its boundary, taken as it stands, and how long an image is comes
from the headers of its part, so nothing is searched for inside an image.

`stream_framing` says the reader undoes what `sendInitialHeaders` and
`sendFrame` write, whatever bytes the images have in them.
-/

namespace SecMon.Http

open Reading Buffer StreamConnection

/-! ### The reader -/

/-- The boundary that the headers declare. -/
def boundary (headers : List Header) : Option Bytes := do
  let type ← field (ascii "Content-Type") headers
  let (_, rest) ← (upTo (ascii "boundary=")).run type
  return rest

/-- One part: the line break and the delimiter line before it, its headers,
and the bytes that they count. -/
def readPart (delimiter : Bytes) : Reader UInt8 Bytes := do
  literal [13, 10]
  let line ← upTo [13, 10]
  if line = delimiter then do
    let headers ← readHeaders
    let n ← lift (contentLength headers)
    exactly n
  else lift none

/-- A header block and nothing but parts behind it. -/
def readStream (s : Bytes) : Option (List Bytes) := do
  let (head, rest) ← readHead.run s
  let delimiter ← boundary head.2
  all (readPart delimiter) rest

/-! ### What it reads -/

theorem plain_of_mem_initialReply {h : Header} (hh : h ∈ initialReply.headers) : h.Plain := by
  have hall : ∀ h ∈ initialReply.headers, ch ':' ∉ h.name ∧ 13 ∉ h.name ∧ 13 ∉ h.value := by
    decide +kernel
  obtain ⟨hn, hcr, hv⟩ := hall h hh
  exact ⟨hn, hcr, hv⟩

theorem boundary_initialReply : boundary initialReply.headers = some boundaryString := by
  decide +kernel

/-- The headers of a part. -/
def frameHeaders (image : Image) : List Header :=
  [⟨ascii "Content-type", ascii "image/jpeg"⟩,
    ⟨ascii "Content-Length", decimal image.bytes.length⟩]

theorem contentLength_frameHeaders (image : Image) :
    contentLength (frameHeaders image) = some image.bytes.length := by
  have htype : ¬ (ascii "Content-type").map toLower = (ascii "Content-Length").map toLower := by
    decide +kernel
  unfold contentLength field frameHeaders
  rw [List.find?_cons_of_neg (by simpa using htype), List.find?_cons_of_pos (by simp)]
  exact readDecimal_decimal _

theorem plain_of_mem_frameHeaders {image : Image} {h : Header} (hh : h ∈ frameHeaders image) :
    h.Plain := by
  have htype : ch ':' ∉ ascii "Content-type" ∧ 13 ∉ ascii "Content-type" ∧
      13 ∉ ascii "image/jpeg" := by decide +kernel
  have hlength : ch ':' ∉ ascii "Content-Length" ∧ 13 ∉ ascii "Content-Length" := by
    decide +kernel
  simp only [frameHeaders, List.mem_cons, List.not_mem_nil, or_false] at hh
  rcases hh with rfl | rfl
  · exact ⟨htype.1, htype.2.1, htype.2.2⟩
  · exact ⟨hlength.1, hlength.2, not_mem_decimal (by decide) _⟩

theorem denote_frameBuffers (image : Image) : denote (frameBuffers image) =
    [13, 10] ++ ((boundaryString ++ [13, 10]) ++
      (((frameHeaders image).flatMap (fun h => h.line ++ [13, 10]) ++ [13, 10]) ++ image.bytes)) := by
  have htext : frameHeader = [13, 10] ++ boundaryString ++ [13, 10] ++
      (Header.line ⟨ascii "Content-type", ascii "image/jpeg"⟩ ++ [13, 10]) ++
      ascii "Content-Length" ++ Reply.nameValueSeparator := by decide +kernel
  simp only [denote, frameBuffers, frameHeaders, List.flatMap_cons, List.flatMap_nil, htext,
    Header.line, StreamConnection.crlf, List.append_assoc, List.append_nil]

/-- **A part is read back**, whatever its image has in it and whatever comes
after it. -/
theorem reads_part (image : Image) :
    Reads (readPart boundaryString) (denote (frameBuffers image)) image.bytes := by
  have hline : (13 : UInt8) ∉ boundaryString := by decide +kernel
  rw [denote_frameBuffers]
  refine (reads_literal _).bind ((reads_upTo hline).bind ?_)
  rw [if_pos rfl]
  refine (reads_headerBlock fun h hh => plain_of_mem_frameHeaders hh).bind ?_
  exact (reads_lift (contentLength_frameHeaders image)).bind (reads_exactly rfl)

theorem denote_frameBuffers_ne_nil (image : Image) : denote (frameBuffers image) ≠ [] := by
  rw [denote_frameBuffers]
  exact List.cons_ne_nil _ _

theorem denote_headerBuffers : denote StreamConnection.headerBuffers = denote initialReply.toBuffers := by
  unfold denote StreamConnection.headerBuffers
  rw [List.flatMap_map]
  rfl

/-- **The stream framing is decodable.**  Whatever the images are, a reader
that goes by the declared boundary and the declared lengths finds them all
again in what is sent, and nothing else. -/
theorem stream_framing (images : List Image) :
    readStream (denote StreamConnection.headerBuffers ++
      images.flatMap fun image => denote (frameBuffers image)) = some (images.map Image.bytes) := by
  have hhead := reads_head .ok (fun h hh => plain_of_mem_initialReply hh)
    (images.flatMap fun image => denote (frameBuffers image))
  have hcontent : initialReply.content = [] := rfl
  rw [denote_headerBuffers, denote_toBuffers, hcontent, List.append_nil, readStream,
    show initialReply.status = .ok from rfl, hhead]
  simp only [Option.bind_eq_bind, Option.bind_some, boundary_initialReply]
  exact all_flatMap (fun image _ => reads_part image)
    (fun image _ => denote_frameBuffers_ne_nil image)

end SecMon.Http
