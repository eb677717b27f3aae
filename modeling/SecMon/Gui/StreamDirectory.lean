import SecMon.Gui.Text

/-!
# The stream directory

`GUI/StreamDirectory.cpp` and the list of viewers of `GUI/Stream.cpp`.  A
stream knows the viewers registered with it by the connections (of type `κ`)
they were made from.  The ids are the exact ones: where the source's `int`
would overflow it promises nothing.
-/

namespace SecMon.Http

variable {κ : Type}

/-- `Stream`. -/
structure Stream (κ : Type) where
  streamId : Int
  connectionList : List κ := []

/-- `Stream::registerNewConnection`: the new viewer joins the list. -/
def Stream.registerNewConnection (conn : κ) (str : Stream κ) : Stream κ :=
  { str with connectionList := str.connectionList ++ [conn] }

/-- The erase of `Stream::deregisterConnection`, at a position of the list. -/
def Stream.eraseConnection (pos : Nat) (str : Stream κ) : Stream κ :=
  { str with connectionList := str.connectionList.eraseIdx pos }

/-- `StreamDirectory`, with `stream_list_` in the order of its keys. -/
structure StreamDirectory (κ : Type) where
  streamId : Int := 0
  streamList : List (Int × Stream κ) := []

/-- `StreamDirectory::addStream`.  The key is new, so `insert` inserts, and it
is the greatest. -/
def StreamDirectory.addStream (dir : StreamDirectory κ) : StreamDirectory κ where
  streamId := dir.streamId + 1
  streamList := dir.streamList ++ [(dir.streamId + 1, { streamId := dir.streamId + 1 })]

/-- Change the stream of one id. -/
def StreamDirectory.modify (dir : StreamDirectory κ) (id : Int) (f : Stream κ → Stream κ) :
    StreamDirectory κ :=
  { dir with streamList := dir.streamList.map fun e => if e.1 = id then (e.1, f e.2) else e }

/-- Register a connection with the stream of one id. -/
def StreamDirectory.register (dir : StreamDirectory κ) (id : Int) (conn : κ) :
    StreamDirectory κ :=
  dir.modify id (·.registerNewConnection conn)

/-- The connection at a position of the list of one stream leaves it. -/
def StreamDirectory.deregister (dir : StreamDirectory κ) (id : Int) (pos : Nat) :
    StreamDirectory κ :=
  dir.modify id (·.eraseConnection pos)

/-- `StreamDirectory::handleValidStream`; `none` for the answer `false`, which
changes nothing. -/
def StreamDirectory.handleValidStream (dir : StreamDirectory κ) (streamRequest : Bytes)
    (conn : κ) : Option (StreamDirectory κ) := do
  let lastDotPos ← findLastOf (ch '.') streamRequest
  let filename ← substr 1 (lastDotPos + 1) streamRequest
  let id ← stoi filename
  let _ ← dir.streamList.lookup id
  return dir.register id conn

end SecMon.Http
