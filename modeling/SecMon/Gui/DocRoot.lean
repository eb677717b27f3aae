import SecMon.Core.Path
import SecMon.Gui.RequestHandler

/-!
# The document root

What `handle_request` opens is the document root followed by a path that
begins with a slash and never goes up.  The guard looks for `..` in the decoded
path; `index.html` is appended after that and `c_str()` cuts the path at a NUL,
but neither makes a `..` that was not there: the first would need a dot where
the slash stands that it follows, and the second only takes a prefix.
-/

namespace SecMon.Http

/-- Where a path leads from the directory it is appended to: `none` if it leads
above that. -/
def normalise (path : Bytes) : Option (List Bytes) :=
  Path.normalise (ch '/') (ascii ".") (ascii "..") path

/-- `path` is `docRoot`, a slash, and what never climbs above `docRoot`. -/
def Under (docRoot path : Bytes) : Prop :=
  ∃ rest, path = docRoot ++ ch '/' :: rest ∧ (normalise (ch '/' :: rest)).isSome = true

instance (docRoot path : Bytes) : Decidable (Under docRoot path) :=
  decidable_of_iff
    ((docRoot ++ [ch '/']) <+: path ∧ (normalise (path.drop docRoot.length)).isSome = true) <| by
    constructor
    · intro hr
      obtain ⟨⟨rest, rfl⟩, h⟩ := hr
      rw [List.append_assoc, List.drop_left] at h
      exact ⟨rest, List.append_assoc .., h⟩
    · intro hr
      obtain ⟨rest, rfl, h⟩ := hr
      rw [List.drop_left]
      exact ⟨⟨rest, List.append_assoc ..⟩, h⟩

theorem addIndex_safe {decoded : Bytes} (h : ¬ ascii ".." <:+: decoded) :
    ¬ ascii ".." <:+: addIndex decoded := by
  unfold addIndex
  by_cases hs : decoded.getLast? = some (ch '/')
  · rw [if_pos hs]
    intro hin
    rcases Path.infix_append_of_getLast hs (by decide) hin with hin | hin
    · exact h hin
    · revert hin
      decide
  · rw [if_neg hs]
    exact h

theorem addIndex_head {decoded : Bytes} (h : decoded.head? = some (ch '/')) :
    ∃ rest, addIndex decoded = ch '/' :: rest := by
  cases decoded with
  | nil => exact absurd h (by simp)
  | cons b s =>
    obtain rfl : b = ch '/' := Option.some.inj h
    unfold addIndex
    split
    · exact ⟨s ++ ascii "index.html", rfl⟩
    · exact ⟨s, rfl⟩

/-- **Files served stay under the document root**, however the request was
encoded.  A root with a NUL in it would be cut itself. -/
theorem served_under_docRoot {κ : Type} {handler : RequestHandler κ}
    {files : Bytes → Option Bytes} {req : Request} {rep : Reply} {conn : κ} {path : Bytes}
    (hroot : 0 ∉ handler.docRoot)
    (h : (handler.handleRequest files req rep conn).opened = some path) :
    Under handler.docRoot path := by
  obtain ⟨decoded, -, hhead, hdots, rfl⟩ := opened_eq_some h
  obtain ⟨rest, hrest⟩ := addIndex_head hhead
  have hsafe : ¬ ascii ".." <:+: cString (addIndex decoded) := by
    intro hin
    exact addIndex_safe hdots (hin.trans (isPrefix_cString _).isInfix)
  have hcut : cString (addIndex decoded) = ch '/' :: cString rest := by
    rw [hrest]
    exact List.takeWhile_cons_of_pos (by decide)
  rw [hcut] at hsafe
  refine ⟨cString rest, ?_, ?_⟩
  · rw [cString_append hroot, hcut]
  · exact Path.normalise_isSome hsafe

/-- A handler that serves `public` and knows no stream. -/
def publicHandler : RequestHandler Unit := ⟨ascii "public", {}⟩

/-- `/%2e/%00/` is opened as `public/./`. -/
theorem served_under_docRoot_encoded :
    (publicHandler.handleRequest (fun _ => none) { uri := ascii "/%2e/%00/" } {} ()).opened =
      some (ascii "public/./") ∧ Under (ascii "public") (ascii "public/./") := by
  have hopen : (publicHandler.handleRequest (fun _ => none) { uri := ascii "/%2e/%00/" } {}
      ()).opened = some (ascii "public/./") := by decide +kernel
  exact ⟨hopen, served_under_docRoot (by decide) hopen⟩

/-- With a NUL for its document root the handler opens the empty path. -/
theorem not_served_under_docRoot :
    ¬ ∀ (handler : RequestHandler Unit) (files : Bytes → Option Bytes) (req : Request)
      (rep : Reply) (path : Bytes),
      (handler.handleRequest files req rep ()).opened = some path →
        Under handler.docRoot path := by
  intro h
  have hopen : Under [0] [] :=
    h ⟨[0], {}⟩ (fun _ => none) { uri := ascii "/a" } {} [] (by decide +kernel)
  exact absurd hopen (by decide +kernel)

end SecMon.Http
