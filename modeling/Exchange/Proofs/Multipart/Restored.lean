import Exchange.Multipart.Synthetic
import Exchange.Proofs.Multipart.Rechunking

/-!
Synthetic bodies, cut into pieces and put together again.

Every file of a synthetic body is cut into full pieces and one last one that holds what is left
(`pieces_eq`), and only the last is final. If no file were cut, each would be one part as long as
there is room for it (`Room.tells`, `room_of_tells`), and cutting it up changes nothing about that
(`tellsFrom_cut`). So whoever reads a synthetic body gets its files back, in order, and then the
end, exactly if the limits admit them (`restored`). Empty files are no parts.
-/
namespace Exchange.Multipart

/-! ### One field at a time -/

theorem Limits.exhausted?_eq_none_iff {limits : Limits} {completed : Nat} :
    limits.exhausted? completed = none ↔ ∀ max, limits.maxParts = some max → completed < max := by
  unfold exhausted?
  simp only [Option.filter_eq_none_iff, decide_eq_true_eq, Nat.not_le]

namespace Demux

variable {d : Demux Unsupplied} {b : Buffer}

theorem assemblyFor_clear (hclear : d.unfinished = []) (field : Field) :
    d.assemblyFor field = .ok ⟨field, d.limits.maxPart, []⟩ := by
  rw [assemblyFor, hclear]
  rfl

/-- The first payload of a field is kept alone if no other field is unfinished. -/
theorem store_alone (hclear : d.unfinished = []) (hbody : d.received + b.size ≤ d.limits.maxBody)
    (hpart : b.size ≤ d.limits.maxPart) (field : Field) :
    d.store field b = (.ok (), { d with
      received := d.received + b.size
      unfinished := [(field.name, ⟨field, d.limits.maxPart, b.bytes⟩)] }) := by
  have hfits : ¬ d.limits.maxPart < 0 + b.size := by omega
  rw [store_assembled (Nat.not_lt.mpr hbody) (assemblyFor_clear hclear field), hclear]
  exact if_neg hfits

/-- A payload that is too large for a part is refused as the first of its field. -/
theorem store_overlarge (hclear : d.unfinished = [])
    (hbody : d.received + b.size ≤ d.limits.maxBody) (hpart : d.limits.maxPart < b.size)
    (field : Field) :
    d.store field b =
      (.error (.fault (.partTooLarge field.name (0 + b.size) d.limits.maxPart)),
        { d with received := d.received + b.size }) := by
  have hlarger : d.limits.maxPart < 0 + b.size := by omega
  rw [store_assembled (Nat.not_lt.mpr hbody) (assemblyFor_clear hclear field)]
  exact if_pos hlarger

/-- The only unfinished field completes a part if one more is admitted and owed. -/
theorem close_alone {name : String} {a : Assembly}
    (halone : d.unfinished = [(name, a)]) (hadmitted : d.limits.exhausted? d.completed = none)
    (howed : d.flow = ⟨1, 0⟩) :
    d.close name = (.ok (some a.complete), { d with
      unfinished := [], flow := ⟨0, 0⟩, completed := d.completed + 1 }) := by
  rw [close, halone, List.lookup_cons_self]
  dsimp only
  rw [hadmitted, howed, List.filter_cons_of_neg (by simp)]
  rfl

theorem close_exhausted {name : String} {a : Assembly} {max : Nat}
    (halone : d.unfinished = [(name, a)])
    (hexhausted : d.limits.exhausted? d.completed = some max) :
    d.close name = (.error (.fault (.tooManyParts max)), { d with unfinished := [] }) := by
  rw [close, halone, List.lookup_cons_self]
  dsimp only
  rw [hexhausted, List.filter_cons_of_neg (by simp)]
  rfl

end Demux

namespace Synthetic

/-! ### Pieces -/

/-- All pieces are full but the last, which holds what is left. -/
theorem pieces_eq (piece left : Nat) :
    ∃ full last, pieces piece left = List.replicate full (piece + 1) ++ [last] ∧
      full * (piece + 1) + last = left ∧ last ≤ piece + 1 ∧ (last = 0 ↔ left = 0) := by
  induction left using pieces.induct piece with
  | case1 left hfits =>
    refine ⟨0, left, ?_, ?_, hfits, Iff.rfl⟩
    · rw [pieces, if_pos hfits]
      rfl
    · rw [Nat.zero_mul, Nat.zero_add]
  | case2 left hlarger ih =>
    obtain ⟨full, last, hpieces, hsum, hlast, hempty⟩ := ih
    refine ⟨full + 1, last, ?_, ?_, hlast, ?_⟩
    · rw [pieces, if_neg hlarger, hpieces, List.replicate_succ, List.cons_append]
    · rw [Nat.succ_mul]
      omega
    · omega

/-- Of the fragments of a file only the last is final. -/
theorem fileFragments_concat (field : Field) (sizes : List Nat) (last : Nat) :
    fileFragments field (sizes ++ [last]) =
      sizes.map (fragment field · false) ++ [fragment field last true] := by
  induction sizes with
  | nil => rfl
  | cons size more ih =>
    rw [List.map_cons, List.cons_append, List.cons_append, ← ih]
    cases more <;> rfl

/-- The payload of a piece. -/
def payload (size : Nat) : Buffer := ⟨List.replicate size 0x78, false⟩

theorem fileFragments_eq (field : Field) (sizes : List Nat) :
    fileFragments field sizes = fragmentsOf field true (sizes.map payload) := by
  induction sizes using fileFragments.induct with
  | case1 => rfl
  | case2 => rfl
  | case3 size more hmore ih =>
    cases more with
    | nil => exact absurd rfl hmore
    | cons size' more => exact congrArg (fragment field size false :: ·) ih

theorem flatMap_payload (sizes : List Nat) :
    (sizes.map payload).flatMap (·.bytes) = (payload sizes.sum).bytes := by
  induction sizes with
  | nil => rfl
  | cons size more ih =>
    rw [List.map_cons, List.flatMap_cons, ih, List.sum_cons]
    exact List.replicate_append_replicate

theorem size_payload (size : Nat) : (payload size).size = size := List.length_replicate

theorem payload_ne_nil {size : Nat} (h : size ≠ 0) : (payload size).bytes ≠ [] :=
  mt (List.replicate_eq_nil_iff _).mp h

/-! ### Files in one fragment each -/

/-- A file as a part. -/
def file (size index : Nat) : Part := ⟨field index, (payload size).bytes⟩

/-- The item of a file that is not cut. -/
def whole (size index : Nat) : Item := .ok (fragment (field index) size true)

/-- A demultiplexer that has no field unfinished can take `count` more files of `size` bytes. -/
structure Room (size count : Nat) (d : Demux Unsupplied) : Prop where
  clear : d.unfinished = []
  part : 0 < count → size ≤ d.limits.maxPart
  body : d.received + count * size ≤ d.limits.maxBody
  parts : ∀ max, d.limits.maxParts = some max → d.completed + count ≤ max

/-- A demultiplexer behind one more file of `size` bytes. -/
def behind (size : Nat) (d : Demux Unsupplied) : Demux Unsupplied :=
  { d.bare ⟨0, 0⟩ with
    received := d.received + (payload size).size
    unfinished := []
    completed := d.completed + 1 }

/-- There is room for some files if there is for the first one, and for the others behind it. -/
theorem room_succ_iff {size count : Nat} {d : Demux Unsupplied} :
    Room size (count + 1) d ↔ Room size 1 d ∧ Room size count (behind size d) := by
  have hbody : d.received + (count + 1) * size = (behind size d).received + count * size := by
    have hreceived : (behind size d).received = d.received + size :=
      congrArg (d.received + ·) (size_payload size)
    rw [hreceived, Nat.succ_mul]
    omega
  constructor
  · rintro ⟨hclear, hpart, hfits, hparts⟩
    have hpart := hpart (Nat.succ_pos count)
    have hone : d.received + 1 * size ≤ d.limits.maxBody := by
      rw [Nat.succ_mul] at hfits
      omega
    refine ⟨⟨hclear, fun _ => hpart, hone, fun max hmax => ?_⟩,
      ⟨rfl, fun _ => hpart, hbody.ge.trans hfits, fun max hmax => ?_⟩⟩
    · have := hparts max hmax
      omega
    · have := hparts max hmax
      show d.completed + 1 + count ≤ max
      omega
  · rintro ⟨⟨hclear, hpart, -, -⟩, ⟨-, -, hfits, hparts⟩⟩
    refine ⟨hclear, fun _ => hpart Nat.one_pos, hbody.trans_le hfits, fun max hmax => ?_⟩
    have hmore : d.completed + 1 + count ≤ max := hparts max hmax
    omega

section

variable {size : Nat} {d : Demux Unsupplied}

/-- A demultiplexer that stored a file, before the file is closed. -/
def stored (size index : Nat) (d : Demux Unsupplied) : Demux Unsupplied :=
  { d.bare ⟨1, 0⟩ with
    received := d.received + (payload size).size
    unfinished := [((field index).name, ⟨field index, d.limits.maxPart, (payload size).bytes⟩)] }

/-- A file that is within the limits on bytes is stored, and closed. -/
theorem tellsFrom_within (hsize : size ≠ 0) (hclear : d.unfinished = [])
    (hbody : d.received + (payload size).size ≤ d.limits.maxBody)
    (hpart : (payload size).size ≤ d.limits.maxPart) (index : Nat) (rest : List Item) :
    d.tellsFrom (whole size index :: rest) =
      Demux.tellsOf rest ((stored size index d).close (field index).name) := by
  have hstore := Demux.store_alone (d := d.bare ⟨1, 0⟩) hclear hbody hpart (field index)
  rw [whole, Demux.tellsFrom_stored (payload_ne_nil hsize) hstore]
  rfl

/-- A file that is not empty is a part if there is room for it. -/
theorem tellsFrom_whole (h : Room size 1 d) (hsize : size ≠ 0) (index : Nat) (rest : List Item) :
    d.tellsFrom (whole size index :: rest) =
      .part (file size index) :: (behind size d).tellsFrom rest := by
  obtain ⟨hclear, hpart, hbody, hparts⟩ := h
  have hpart := hpart Nat.one_pos
  have hlength := size_payload size
  have hadmitted := Limits.exhausted?_eq_none_iff.mpr hparts
  have hclose := Demux.close_alone (d := stored size index d) rfl hadmitted rfl
  rw [tellsFrom_within hsize hclear (by omega) (by omega), hclose]
  rfl

/-- Without room for it, it is the last thing told of. -/
theorem tellsFrom_roomless (hclear : d.unfinished = []) (h : ¬ Room size 1 d) (hsize : size ≠ 0)
    (index : Nat) (rest : List Item) :
    ∃ e, d.tellsFrom (whole size index :: rest) = [.fault e] := by
  have hlength := size_payload size
  have hbytes : (fragment (field index) size true).data.bytes ≠ [] := payload_ne_nil hsize
  by_cases hbody : d.received + (payload size).size ≤ d.limits.maxBody
  · by_cases hpart : (payload size).size ≤ d.limits.maxPart
    · have hmore : d.limits.exhausted? d.completed ≠ none := fun hnone =>
        h ⟨hclear, fun _ => by omega, by omega, Limits.exhausted?_eq_none_iff.mp hnone⟩
      obtain ⟨max, hmax⟩ := Option.ne_none_iff_exists'.mp hmore
      have hclose := Demux.close_exhausted (d := stored size index d) rfl hmax
      rw [tellsFrom_within hsize hclear hbody hpart, hclose]
      exact ⟨_, rfl⟩
    · have hstore := Demux.store_overlarge (d := d.bare ⟨1, 0⟩) hclear hbody (Nat.not_le.mp hpart)
        (field index)
      exact ⟨_, Demux.tellsFrom_unstored hbytes hstore rest⟩
  · have hstore : (d.bare ⟨1, 0⟩).store (field index) (payload size) = _ :=
      Demux.store_oversized _ (Nat.not_le.mp hbody)
    exact ⟨_, Demux.tellsFrom_unstored hbytes hstore rest⟩

end

/-- Files that are not empty are parts, one after the other, as long as there is room. -/
theorem Room.tells {size : Nat} {indices : List Nat} {d : Demux Unsupplied}
    (h : Room size indices.length d) (hsize : size ≠ 0) :
    d.tellsFrom (indices.map (whole size)) =
      (indices.map (file size)).map .part ++ [.finished] := by
  induction indices generalizing d with
  | nil => rfl
  | cons index more ih =>
    obtain ⟨hone, hmore⟩ := room_succ_iff.mp h
    rw [List.map_cons, tellsFrom_whole hone hsize, ih hmore]
    rfl

theorem fault_ne_finished (e : Fault) (parts : List Part) :
    [.fault e] ≠ parts.map Outcome.part ++ [.finished] := by
  intro h
  have hlast := congrArg List.getLast? h
  rw [List.getLast?_concat] at hlast
  cases hlast

/-- Without room for all of them they do not come to their end. -/
theorem room_of_tells {size : Nat} {indices : List Nat} {d : Demux Unsupplied} {parts : List Part}
    (hroom : Room size 0 d) (hsize : size ≠ 0)
    (h : d.tellsFrom (indices.map (whole size)) = parts.map .part ++ [.finished]) :
    Room size indices.length d := by
  induction indices generalizing d parts with
  | nil => exact hroom
  | cons index more ih =>
    rw [List.map_cons] at h
    by_cases hone : Room size 1 d
    · rw [tellsFrom_whole hone hsize] at h
      cases parts with
      | nil => cases h
      | cons p parts =>
        exact room_succ_iff.mpr ⟨hone, ih (room_succ_iff.mp hone).2 (List.cons.inj h).2⟩
    · obtain ⟨e, he⟩ := tellsFrom_roomless hroom.clear hone hsize index (more.map (whole size))
      exact absurd (he.symm.trans h) (fault_ne_finished e parts)

/-- Empty files are no parts. -/
theorem tellsFrom_vacant {d : Demux Unsupplied} (hclear : d.unfinished = []) (indices : List Nat) :
    d.tellsFrom (indices.map (whole 0)) = [.finished] := by
  induction indices with
  | nil => rfl
  | cons index more ih =>
    have hclose : (d.bare ⟨1, 0⟩).close (field index).name = (.ok none, d.bare ⟨1, 0⟩) := by
      rw [Demux.close, show (d.bare ⟨1, 0⟩).unfinished = [] from hclear]
      rfl
    rw [List.map_cons, whole, d.tellsFrom_close (f := fragment (field index) 0 true) rfl rfl]
    rw [show (fragment (field index) 0 true).field.name = (field index).name from rfl, hclose]
    exact (Demux.tellsFrom_bare ⟨1, 0⟩ d _).trans ih

/-! ### Files in pieces -/

/-- Cutting files into pieces that are not empty changes nothing about the parts. -/
theorem tellsFrom_cut {sizes : List Nat} (hsizes : ∀ size ∈ sizes, size ≠ 0) (hsum : sizes.sum ≠ 0)
    (indices : List Nat) (d : Demux Unsupplied) :
    Alike (d.tellsFrom (indices.map (whole sizes.sum)))
      (d.tellsFrom ((indices.flatMap fun i => fileFragments (field i) sizes).map .ok)) := by
  induction indices generalizing d with
  | nil => exact d.tellsFrom_alike _
  | cons index more ih =>
    have hbuffers : ∀ b ∈ sizes.map payload, b.bytes ≠ [] :=
      List.forall_mem_map.mpr fun size hsize => payload_ne_nil (hsizes size hsize)
    have hpieces := d.tellsFrom_pieces (field index) true
      ((more.flatMap fun i => fileFragments (field i) sizes).map .ok) (c := payload sizes.sum)
      (payload_ne_nil hsum) hbuffers (flatMap_payload sizes)
    rw [← fileFragments_eq, ← List.map_append] at hpieces
    rw [List.flatMap_cons]
    exact (Alike.compares.cons fun _ _ d' _ _ => ih d').trans hpieces

/-! ### Whole bodies -/

/-- The pieces of the files of a body are all of one size but the last. -/
theorem fragments_eq (b : Synthetic) :
    ∃ full last, full * max b.pieceSize 1 + last = b.partSize ∧ last ≤ max b.pieceSize 1 ∧
      (last = 0 ↔ b.partSize = 0) ∧
      b.fragments = (List.range b.parts).flatMap fun i =>
        List.replicate full (fragment (field i) (max b.pieceSize 1) false) ++
          [fragment (field i) last true] := by
  obtain ⟨full, last, hpieces, hsum, hlast, hempty⟩ := pieces_eq (b.pieceSize - 1) b.partSize
  have hpiece : b.pieceSize - 1 + 1 = max b.pieceSize 1 := by omega
  rw [hpiece] at hpieces hsum hlast
  refine ⟨full, last, hsum, hlast, hempty, ?_⟩
  rw [fragments, hpieces]
  refine congrArg (List.range b.parts).flatMap (funext fun i => ?_)
  rw [fileFragments_concat, List.map_replicate]

theorem bytesIn_fileFragments (field : Field) (sizes : List Nat) :
    bytesIn (fileFragments field sizes) = sizes.sum := by
  induction sizes using fileFragments.induct with
  | case1 => rfl
  | case2 last => exact congrArg (· + 0) List.length_replicate
  | case3 size more hmore ih =>
    rw [fileFragments, List.sum_cons, ← ih]
    · exact congrArg (· + bytesIn (fileFragments field more)) List.length_replicate
    · exact hmore

theorem sum_pieces (piece left : Nat) : (pieces piece left).sum = left := by
  obtain ⟨full, last, hpieces, hsum, -⟩ := pieces_eq piece left
  rw [hpieces, List.sum_append, List.sum_replicate, List.sum_singleton]
  exact hsum

theorem bytesIn_fragments (b : Synthetic) : bytesIn b.fragments = b.totalSize := by
  have hfiles : ∀ indices : List Nat,
      bytesIn (indices.flatMap fun i =>
        fileFragments (field i) (pieces (b.pieceSize - 1) b.partSize)) =
        indices.length * b.partSize := by
    intro indices
    induction indices with
    | nil => rw [List.length_nil, Nat.zero_mul]; rfl
    | cons index more ih =>
      rw [List.flatMap_cons, bytesIn_append, bytesIn_fileFragments, sum_pieces, ih,
        List.length_cons, Nat.succ_mul, Nat.add_comm]
  rw [fragments, hfiles, List.length_range, totalSize]

/-- The parts that the files of a body come to. -/
def files (b : Synthetic) : List Part :=
  if b.partSize = 0 then [] else (List.range b.parts).map (file b.partSize)

/-- Limits that admit a body. Where there is no part the limits on parts do not matter. -/
structure Fits (b : Synthetic) (limits : Limits) : Prop where
  enabled : limits.enabled = true
  part : 0 < b.parts → b.partSize ≤ limits.maxPart
  body : b.totalSize ≤ limits.maxBody
  parts : 0 < b.partSize → ∀ max, limits.maxParts = some max → b.parts ≤ max

/-- Empty files are not cut. -/
theorem fragments_vacant {b : Synthetic} (hempty : b.partSize = 0) :
    b.fragments.map .ok = (List.range b.parts).map (whole 0) := by
  have hpieces : pieces (b.pieceSize - 1) 0 = [0] := by
    rw [pieces, if_pos (Nat.zero_le _)]
  rw [fragments, hempty, hpieces, List.map_flatMap, List.map_eq_flatMap]
  rfl

/-- The pieces of a file are empty only if the file is. -/
theorem ne_zero_of_mem_pieces {piece left : Nat} (hleft : left ≠ 0) :
    ∀ size ∈ pieces piece left, size ≠ 0 := by
  obtain ⟨full, last, hpieces, -, -, hempty⟩ := pieces_eq piece left
  intro size hmem
  rw [hpieces] at hmem
  rcases List.mem_append.mp hmem with hfull | hlast
  · rw [List.eq_of_mem_replicate hfull]
    exact Nat.succ_ne_zero piece
  · rw [List.mem_singleton.mp hlast]
    exact mt hempty.mp hleft

/-- A demultiplexer that has taken nothing yet. -/
def fresh (limits : Limits) : Demux Unsupplied :=
  Demux.bare ⟨1, 1⟩ { source := Unsupplied.mk, limits }

theorem room_fresh_iff {b : Synthetic} {limits : Limits} (henabled : limits.enabled = true)
    (hfull : b.partSize ≠ 0) : Room b.partSize b.parts (fresh limits) ↔ b.Fits limits := by
  have hbody : (fresh limits).received + b.parts * b.partSize = b.totalSize := Nat.zero_add _
  have hparts : (fresh limits).completed + b.parts = b.parts := Nat.zero_add _
  constructor
  · rintro ⟨-, hpart, hfits, hroom⟩
    exact ⟨henabled, hpart, hbody ▸ hfits, fun _ max hmax => hparts ▸ hroom max hmax⟩
  · rintro ⟨-, hpart, hfits, hroom⟩
    exact ⟨rfl, hpart, hbody.trans_le hfits, fun max hmax =>
      hparts.trans_le (hroom (Nat.pos_of_ne_zero hfull) max hmax)⟩

/-- Files that are not empty come to their end if and only if there is room for them. Whole, they do
so, and in pieces they do as they do whole. -/
theorem tellsFrom_fragments_iff {b : Synthetic} (hfull : b.partSize ≠ 0) {d : Demux Unsupplied}
    (hroom : Room b.partSize 0 d) :
    d.tellsFrom (b.fragments.map .ok) =
        ((List.range b.parts).map (file b.partSize)).map .part ++ [.finished] ↔
      Room b.partSize b.parts d := by
  have hlength : (List.range b.parts).length = b.parts := List.length_range
  have hsizes : ∀ size ∈ pieces (b.pieceSize - 1) b.partSize, size ≠ 0 :=
    ne_zero_of_mem_pieces hfull
  have hcut := tellsFrom_cut hsizes (by rwa [sum_pieces]) (List.range b.parts) d
  rw [sum_pieces] at hcut
  obtain ⟨parts, last, last', hwhole, hpieces, hends⟩ := hcut
  rw [fragments, hpieces]
  constructor
  · intro h
    obtain ⟨-, hlast⟩ := List.append_inj' h rfl
    rw [hends.finished.mpr (List.singleton_inj.mp hlast)] at hwhole
    exact hlength ▸ room_of_tells hroom hfull hwhole
  · intro h
    rw [← hlength] at h
    obtain ⟨hparts, hlast⟩ := List.append_inj' ((h.tells hfull).symm.trans hwhole) rfl
    rw [hends.finished.mp (List.singleton_inj.mp hlast).symm, hparts]

/-- Exactly the limits that admit a body let its files be restored. -/
theorem transcript_fragments_iff {b : Synthetic} {limits : Limits} :
    transcript limits (b.fragments.map .ok) = b.files.map .part ++ [.finished] ↔
      b.Fits limits := by
  cases henabled : limits.enabled with
  | false =>
    have hdisabled : transcript limits (b.fragments.map .ok) = [.fault .disabled] :=
      Demux.tells_disabled henabled _
    rw [hdisabled]
    refine ⟨fun h => absurd h (fault_ne_finished .disabled b.files), fun h => ?_⟩
    cases henabled.symm.trans h.enabled
  | true =>
    have hfresh : transcript limits (b.fragments.map .ok) =
        (fresh limits).tellsFrom (b.fragments.map .ok) := if_pos henabled
    rw [hfresh, files]
    split
    · next hempty =>
      have htells : (fresh limits).tellsFrom (b.fragments.map .ok) = [.finished] := by
        rw [fragments_vacant hempty]
        exact tellsFrom_vacant rfl _
      refine ⟨fun _ => ⟨henabled, fun _ => ?_, ?_, fun hsome => ?_⟩, fun _ => htells⟩
      · omega
      · rw [totalSize, hempty]
        exact Nat.zero_le _
      · omega
    · next hfull =>
      have hroom : Room b.partSize 0 (fresh limits) :=
        ⟨rfl, nofun, by simp [fresh, Demux.bare], fun _ _ => Nat.zero_le _⟩
      exact (tellsFrom_fragments_iff hfull hroom).trans (room_fresh_iff henabled hfull)

/-- **Bodies restored.** A synthetic body whose files fit into an address space can be cut up. Its
files are uploads by the names of `file0`, `file1` and so on, all of one size. Each of them, one
after the other, becomes some full pieces and one last one, which alone is final, holds what is
left, and is empty only if the file is; and all bytes are there. Whoever reads the fragments comes
to an end by polling, and then was told the files, in order, and that the body is finished, if and
only if the limits admit the body. Empty files are no parts. -/
theorem restored {b : Synthetic} (hsize : b.partSize < 2 ^ 63) :
    let header (i : Nat) : Field :=
      ⟨s!"file{i}", .file "upload.bin" { essence := "application/octet-stream" }⟩
    let piece (i size : Nat) (final : Bool) : Fragment :=
      ⟨header i, ⟨List.replicate size 0x78, false⟩, final⟩
    let files : List Outcome :=
      if b.partSize = 0 then []
      else (List.range b.parts).map fun i => .part ⟨header i, List.replicate b.partSize 0x78⟩
    b.fragments? = .ok b.fragments ∧
      (∃ full last, full * max b.pieceSize 1 + last = b.partSize ∧ last ≤ max b.pieceSize 1 ∧
        (last = 0 ↔ b.partSize = 0) ∧
        b.fragments = (List.range b.parts).flatMap fun i =>
          List.replicate full (piece i (max b.pieceSize 1) false) ++ [piece i last true]) ∧
      bytesIn b.fragments = b.totalSize ∧
      ∀ {limits : Limits} {events : List Event} {eager : Bool} {l : Ledger} {d : Demux Replay},
        itemsAmong events = b.fragments.map .ok → Alone limits (.ofEvents events true eager) l d →
        (polled (d.source.events.length + 1) l d).1.Over ∧
          (l.Over → (l.told = files ++ [.finished] ↔ b.Fits limits)) ∧
          (b.Fits limits → l.told <+: files ++ [.finished]) := by
  intro header piece files
  have hfiles : files = b.files.map .part := by
    unfold Synthetic.files
    rw [apply_ite (List.map Outcome.part), List.map_map]
    rfl
  refine ⟨if_pos hsize, b.fragments_eq, b.bytesIn_fragments, fun hitems halone => ?_⟩
  obtain ⟨hpart, htold⟩ := told_replayed halone
  rw [hitems] at hpart htold
  rw [hfiles]
  refine ⟨halone.ends (Nat.lt_succ_self _), fun hover => ?_, fun hfits => ?_⟩
  · rw [htold hover]
    exact transcript_fragments_iff
  · exact (transcript_fragments_iff.mpr hfits) ▸ hpart

/-- Two files of five bytes in pieces of two. -/
def twoFiles : Synthetic := ⟨"two files", .small, 2, 5, 2⟩

/-- Limits that these files just meet. -/
def justEnough : Limits := { maxPart := 5, maxBody := 10, maxParts := some 2 }

theorem restored_twoFiles :
    let upload (name : String) : Field :=
      ⟨name, .file "upload.bin" { essence := "application/octet-stream" }⟩
    twoFiles.partSize < 2 ^ 63 ∧ twoFiles.Fits justEnough ∧
      (∃ full last, full * 2 + last = 5 ∧ last ≤ 2 ∧
        twoFiles.fragments = ["file0", "file1"].flatMap fun name =>
          List.replicate full ⟨upload name, ⟨[0x78, 0x78], false⟩, false⟩ ++
            [⟨upload name, ⟨List.replicate last 0x78, false⟩, true⟩]) ∧
      ∃ (l : Ledger) (d : Demux Replay),
        Alone justEnough (.ofItems (twoFiles.fragments.map .ok) false) l d ∧ l.Over ∧
          l.told = [.part ⟨upload "file0", [0x78, 0x78, 0x78, 0x78, 0x78]⟩,
            .part ⟨upload "file1", [0x78, 0x78, 0x78, 0x78, 0x78]⟩, .finished] := by
  intro upload
  have hsize : twoFiles.partSize < 2 ^ 63 := by decide
  have hfits : twoFiles.Fits justEnough := ⟨rfl, fun _ => by decide, by decide, by
    rintro - max ⟨⟩
    decide⟩
  have hstart : Alone justEnough (Replay.ofItems (twoFiles.fragments.map .ok) false) _ _ :=
    Follows.start
  obtain ⟨l, d, hrun, hover⟩ := hstart.exists_over
  obtain ⟨-, ⟨full, last, hall, hlast, -, hfragments⟩, -, hread⟩ := restored hsize
  obtain ⟨-, htold, -⟩ := hread (itemsAmong_events _) hrun
  exact ⟨hsize, hfits, ⟨full, last, hall, hlast, hfragments⟩, l, d, hrun, hover,
    (htold hover).mpr hfits⟩

end Synthetic

end Exchange.Multipart
