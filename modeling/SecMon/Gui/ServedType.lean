import SecMon.Gui.DocRoot

/-!
# The type of what is served

`handle_request` takes the extension from the request path, as a `std::string`,
and opens a file by its `c_str()`.  A NUL in the path makes these two paths.

* `extension_append_slash`: the extension depends on the last component alone.
* `extensionToType_nul`: a NUL counts as a letter of the extension, which is then
  in no table, or as one in front of it.
* `served_type_iff`: when the type sent is that of the file opened.
-/

namespace SecMon.Http

section

variable {a c l t u v : Bytes}

/-! ## Extensions -/

theorem extension_of_dot (hu : ch '/' ∉ u) (hv : ch '/' ∉ v) (hdot : ch '.' ∉ v) :
    extension (l ++ ch '/' :: (u ++ ch '.' :: v)) = v := by
  have hslash : ch '/' ∉ u ++ ch '.' :: v := by
    rw [List.mem_append, List.mem_cons, not_or, not_or]
    exact ⟨hu, by decide, hv⟩
  have hlast : findLastOf (ch '.') (l ++ ch '/' :: (u ++ ch '.' :: v)) =
      some (l ++ ch '/' :: u).length := by
    rw [← List.cons_append, ← List.append_assoc]
    exact findLastOf_append_cons hdot
  have hlen : (l ++ ch '/' :: u).length = l.length + 1 + u.length := by
    rw [List.length_append, List.length_cons]
    omega
  have hlist : l ++ ch '/' :: (u ++ ch '.' :: v) = (l ++ ch '/' :: u) ++ [ch '.'] ++ v := by
    simp only [List.append_assoc, List.cons_append, List.nil_append]
  rw [extension, hlast, findLastOf_append_cons hslash]
  dsimp only
  rw [if_pos (by omega), hlist, List.drop_left']
  rw [List.length_append, List.length_singleton]

theorem extension_of_not_mem (hslash : ch '/' ∉ t) (hdot : ch '.' ∉ t) :
    extension (l ++ ch '/' :: t) = [] := by
  have hlast : findLastOf (ch '.') (l ++ ch '/' :: t) = findLastOf (ch '.') l := by
    rw [List.append_cons, findLastOf_append hdot, findLastOf_concat, if_neg (by decide)]
  rw [extension, hlast, findLastOf_append_cons hslash]
  obtain ⟨-, hnone⟩ | ⟨l', r, rfl, -, hsome⟩ := findLastOf_cases (ch '.') l
  · rw [hnone]
  · rw [hsome]
    dsimp only
    rw [if_neg]
    rw [List.length_append]
    omega

/-- What stands in front of the last component does not matter. -/
theorem extension_congr (hslash : ch '/' ∉ t) (l l' : Bytes) :
    extension (l ++ ch '/' :: t) = extension (l' ++ ch '/' :: t) := by
  obtain ⟨hdot, -⟩ | ⟨u, v, rfl, hdot, -⟩ := findLastOf_cases (ch '.') t
  · rw [extension_of_not_mem hslash hdot, extension_of_not_mem hslash hdot]
  · rw [List.mem_append, List.mem_cons, not_or, not_or] at hslash
    rw [extension_of_dot hslash.1 hslash.2.2 hdot, extension_of_dot hslash.1 hslash.2.2 hdot]

/-- **The extension depends on what follows any slash.** -/
theorem extension_append_slash (l t : Bytes) :
    extension (l ++ ch '/' :: t) = extension (ch '/' :: t) := by
  obtain ⟨ht, -⟩ | ⟨l', t, rfl, ht, -⟩ := findLastOf_cases (ch '/') t
  · exact extension_congr ht l []
  · rw [← List.cons_append, ← List.append_assoc]
    exact extension_congr ht _ _

/-! ## Types -/

theorem extensionToType_of_mem {e : Bytes} (h : 0 ∈ e) : extensionToType e = ascii "text/plain" := by
  have hall : ∀ m ∈ mappings, (0 : UInt8) ∉ m.1 := by decide +kernel
  rw [extensionToType]
  cases hl : mappings.lookup e with
  | none => rfl
  | some type =>
    obtain ⟨l, r, hm, -⟩ := List.lookup_eq_some_iff.mp hl
    have hmem : (e, type) ∈ mappings := by
      rw [hm]
      exact List.mem_append_right l List.mem_cons_self
    exact absurd h (hall (e, type) hmem)

/-- **Behind a NUL** it is the text there that gives the type. -/
theorem extensionToType_nul (h : ch '/' ∈ a ++ 0 :: c) :
    extensionToType (extension (a ++ 0 :: c)) = extensionToType (extension (ch '/' :: c)) := by
  have hslash : ch '/' ≠ 0 := by decide
  have hpoint : ch '.' ≠ 0 := by decide
  obtain ⟨hc, -⟩ | ⟨l, t, rfl, -, -⟩ := findLastOf_cases (ch '/') c
  · -- the last slash is in front of the NUL
    obtain ⟨ha, -⟩ | ⟨l, t, rfl, ht, -⟩ := findLastOf_cases (ch '/') a
    · simp only [List.mem_append, List.mem_cons, ha, hc, or_false, false_or] at h
      exact absurd h (by decide)
    rw [List.append_assoc, List.cons_append]
    obtain ⟨hdot, -⟩ | ⟨u, v, rfl, hdot, -⟩ := findLastOf_cases (ch '.') c
    · have hnone : extension (ch '/' :: c) = [] := extension_of_not_mem (l := []) hc hdot
      rw [hnone]
      obtain ⟨htdot, -⟩ | ⟨u, v, rfl, hv, -⟩ := findLastOf_cases (ch '.') t
      · rw [extension_of_not_mem]
        · simp [ht, hc, hslash]
        · simp [htdot, hdot, hpoint]
      · rw [List.mem_append, List.mem_cons, not_or, not_or] at ht
        rw [List.append_assoc, List.cons_append, extension_of_dot ht.1]
        · exact extensionToType_of_mem (by simp)
        · simp [ht.2.2, hc, hslash]
        · simp [hv, hdot, hpoint]
    · rw [List.mem_append, List.mem_cons, not_or, not_or] at hc
      have hright : extension (ch '/' :: (u ++ ch '.' :: v)) = v :=
        extension_of_dot (l := []) hc.1 hc.2.2 hdot
      have hlist : t ++ 0 :: (u ++ ch '.' :: v) = (t ++ 0 :: u) ++ ch '.' :: v := by
        rw [List.append_assoc, List.cons_append]
      rw [hright, hlist, extension_of_dot _ hc.2.2 hdot]
      simp [ht, hc.1, hslash]
  · rw [← List.cons_append, ← List.append_assoc, ← List.cons_append,
      extension_append_slash, extension_append_slash]

end

/-! ## Replies -/

theorem cString_of_nul {a : Bytes} (c : Bytes) (ha : 0 ∉ a) : cString (a ++ 0 :: c) = a := by
  rw [cString_append ha]
  exact List.append_nil a

theorem cString_of_not_mem {s : Bytes} (h : 0 ∉ s) : cString s = s := by
  have hs := cString_append (t := []) h
  rw [List.append_nil] at hs
  exact hs.trans (List.append_nil s)

/-- What `handle_request` sends is the type of the whole path. -/
theorem extension_docRoot {decoded : Bytes} (docRoot : Bytes)
    (hhead : decoded.head? = some (ch '/')) :
    extension (docRoot ++ addIndex decoded) = extension (addIndex decoded) := by
  obtain ⟨rest, hrest⟩ := addIndex_head hhead
  rw [hrest]
  exact extension_append_slash docRoot rest

theorem extensionToType_cString_iff {s : Bytes} (hslash : ch '/' ∈ s) :
    extensionToType (extension s) = extensionToType (extension (cString s)) ↔
      ∀ a c, s = a ++ 0 :: c → 0 ∉ a →
        extensionToType (extension a) = extensionToType (extension (ch '/' :: c)) := by
  constructor
  · rintro h a c rfl ha
    rw [cString_of_nul c ha, extensionToType_nul hslash] at h
    exact h.symm
  · intro h
    by_cases hnul : 0 ∈ s
    · obtain ⟨a, c, rfl, ha⟩ := List.eq_append_cons_of_mem hnul
      rw [cString_of_nul c ha, extensionToType_nul hslash]
      exact (h a c rfl ha).symm
    · rw [cString_of_not_mem hnul]

variable {κ : Type}

/-- **The type sent is that of the file opened** if no NUL cuts the path, or if what
stands in front of it and behind it is of one type. -/
theorem served_type_iff (handler : RequestHandler κ) (files : Bytes → Option Bytes)
    (req : Request) (rep : Reply) (conn : κ)
    (hanswer : (handler.handleRequest files req rep conn).isStream = false)
    (hok : (handler.handleRequest files req rep conn).rep.status = .ok) :
    (∃ path, (handler.handleRequest files req rep conn).opened = some path ∧
        (handler.handleRequest files req rep conn).rep.headers[1]? =
          some ⟨ascii "Content-Type", extensionToType (extension path)⟩) ↔
      ∀ decoded a c, urlDecode req.uri = some decoded →
        handler.docRoot ++ addIndex decoded = a ++ 0 :: c → 0 ∉ a →
        extensionToType (extension a) = extensionToType (extension (ch '/' :: c)) := by
  obtain hout | ⟨decoded, hd, hhead, -, ⟨dir', -, hout⟩ | hout | hout | ⟨file, -, hout⟩⟩ :=
    handleRequest_cases handler files req rep conn
  · rw [hout] at hok
    cases hok
  · rw [hout] at hanswer
    cases hanswer
  · rw [hout] at hok
    cases hok
  · rw [hout] at hok
    cases hok
  have hslash : ch '/' ∈ handler.docRoot ++ addIndex decoded := by
    obtain ⟨rest, hrest⟩ := addIndex_head hhead
    rw [hrest]
    exact List.mem_append_right _ List.mem_cons_self
  have htype := extensionToType_cString_iff hslash
  rw [extension_docRoot handler.docRoot hhead] at htype
  rw [hout]
  constructor
  · rintro ⟨path, hpath, hheader⟩ decoded' a c hd' heq ha
    obtain rfl := Option.some.inj hpath
    obtain rfl := Option.some.inj (hd.symm.trans hd')
    exact htype.mp (congrArg Header.value (Option.some.inj hheader)) a c heq ha
  · intro h
    refine ⟨_, rfl, ?_⟩
    rw [← htype.mpr fun a c => h decoded a c hd]
    rfl

/-- The files of a server with one page. -/
def onePage : Bytes → Option Bytes := fun path =>
  if path = ascii "public/a.html" then some (ascii "<html>") else none

/-- A page, asked for with a NUL and an extension of the same type behind its name. -/
theorem served_type_iff_page :
    let out := publicHandler.handleRequest onePage { uri := ascii "/a.html%00.htm" } {} ()
    out.isStream = false ∧ out.rep.status = .ok ∧
      (out.opened = some (ascii "public/a.html") ∧
        out.rep.headers[1]? = some ⟨ascii "Content-Type", ascii "text/html"⟩) ∧
      ((∃ path, out.opened = some path ∧
          out.rep.headers[1]? = some ⟨ascii "Content-Type", extensionToType (extension path)⟩) ↔
        ∀ decoded a c, urlDecode (ascii "/a.html%00.htm") = some decoded →
          publicHandler.docRoot ++ addIndex decoded = a ++ 0 :: c → 0 ∉ a →
          extensionToType (extension a) = extensionToType (extension (ch '/' :: c))) :=
  ⟨by decide +kernel, by decide +kernel, by decide +kernel,
    served_type_iff publicHandler onePage { uri := ascii "/a.html%00.htm" } {} ()
      (by decide +kernel) (by decide +kernel)⟩

/-- The same page, with a NUL and another extension behind its name, is sent as an image. -/
theorem not_served_type :
    ¬∀ (handler : RequestHandler Unit) (files : Bytes → Option Bytes) (req : Request)
      (rep : Reply),
      (handler.handleRequest files req rep ()).isStream = false →
      (handler.handleRequest files req rep ()).rep.status = .ok →
      ∃ path, (handler.handleRequest files req rep ()).opened = some path ∧
        (handler.handleRequest files req rep ()).rep.headers[1]? =
          some ⟨ascii "Content-Type", extensionToType (extension path)⟩ := by
  intro h
  obtain ⟨path, hpath, hheader⟩ := h publicHandler onePage { uri := ascii "/a.html%00.png" } {}
    (by decide +kernel) (by decide +kernel)
  have hopened : (publicHandler.handleRequest onePage { uri := ascii "/a.html%00.png" } {}
      ()).opened = some (ascii "public/a.html") := by decide +kernel
  obtain rfl := Option.some.inj (hopened.symm.trans hpath)
  exact absurd hheader (by decide +kernel)

end SecMon.Http
