import Mathlib.Data.List.Basic

/-!
# Self-delimiting frames

A code writes each frame so that a reader knows where it ends. Reading frames off a stream until one
is refused then recovers a concatenation of frames exactly, and on any stream it finds the longest
prefix that is such a concatenation.
-/

namespace Framing

variable {Frame Symbol : Type*}

/-- An encoder and a decoder of one frame which agree on the frames the decoder accepts. -/
structure Code (Frame Symbol : Type*) where
  Valid : Frame → Prop
  encode : Frame → List Symbol
  decode : List Symbol → Option (Frame × List Symbol)
  decode_encode : ∀ frame rest, Valid frame → decode (encode frame ++ rest) = some (frame, rest)
  encode_decode : ∀ stream frame rest, decode stream = some (frame, rest) →
    Valid frame ∧ stream = encode frame ++ rest
  encode_ne_nil : ∀ frame, encode frame ≠ []

namespace Code

variable (code : Code Frame Symbol)

theorem length_lt_of_decode {stream rest : List Symbol} {frame : Frame}
    (h : code.decode stream = some (frame, rest)) : rest.length < stream.length := by
  have hstream := (code.encode_decode stream frame rest h).2
  have hpos := List.length_pos_iff.mpr (code.encode_ne_nil frame)
  rw [hstream, List.length_append]
  omega

/-- The frames at the front of a stream, and what follows the last of them. -/
def decodeAll (stream : List Symbol) : List Frame × List Symbol :=
  match _hdecode : code.decode stream with
  | none => ([], stream)
  | some (frame, rest) => (frame :: (decodeAll rest).1, (decodeAll rest).2)
termination_by stream.length
decreasing_by all_goals exact code.length_lt_of_decode _hdecode

theorem decodeAll_of_none {stream : List Symbol} (h : code.decode stream = none) :
    code.decodeAll stream = ([], stream) := by
  rw [decodeAll]
  split <;> simp_all

theorem decodeAll_of_some {stream rest : List Symbol} {frame : Frame}
    (h : code.decode stream = some (frame, rest)) :
    code.decodeAll stream = (frame :: (code.decodeAll rest).1, (code.decodeAll rest).2) := by
  rw [decodeAll]
  split <;> simp_all

/-- Decoding splits the stream into valid frames and a rest that starts with no frame. -/
theorem decodeAll_spec (stream : List Symbol) :
    (∀ frame ∈ (code.decodeAll stream).1, code.Valid frame) ∧
      stream = (code.decodeAll stream).1.flatMap code.encode ++ (code.decodeAll stream).2 ∧
      code.decode (code.decodeAll stream).2 = none := by
  fun_induction code.decodeAll stream with
  | case1 stream hdecode => exact ⟨by simp, by simp, hdecode⟩
  | case2 stream frame rest hdecode ih =>
    obtain ⟨hvalid, hstream⟩ := code.encode_decode stream frame rest hdecode
    obtain ⟨hall, hrest, hnone⟩ := ih
    refine ⟨?_, ?_, hnone⟩
    · intro candidate hmem
      rcases List.mem_cons.mp hmem with rfl | hmem
      · exact hvalid
      · exact hall candidate hmem
    · rw [List.flatMap_cons, List.append_assoc, ← hrest]
      exact hstream

theorem decodeAll_append {frames : List Frame} (hvalid : ∀ frame ∈ frames, code.Valid frame)
    (rest : List Symbol) :
    code.decodeAll (frames.flatMap code.encode ++ rest)
      = (frames ++ (code.decodeAll rest).1, (code.decodeAll rest).2) := by
  induction frames with
  | nil => simp
  | cons frame frames ih =>
    have hdecode := code.decode_encode frame (frames.flatMap code.encode ++ rest)
      (hvalid frame List.mem_cons_self)
    have htail := ih fun other hmem => hvalid other (List.mem_cons_of_mem _ hmem)
    rw [List.flatMap_cons, List.append_assoc, code.decodeAll_of_some hdecode, htail]
    rfl

/-- **Stream round trip.** A concatenation of valid frames decodes to those frames. -/
theorem decodeAll_flatMap_encode {frames : List Frame}
    (hvalid : ∀ frame ∈ frames, code.Valid frame) (hnil : code.decode [] = none) :
    (code.decodeAll (frames.flatMap code.encode)).1 = frames := by
  have happend := code.decodeAll_append hvalid []
  rw [List.append_nil, code.decodeAll_of_none hnil] at happend
  rw [happend, List.append_nil]

/-- **Longest prefix.** Any list of valid frames the stream starts with is an initial segment of
the frames decoded. -/
theorem prefix_decodeAll {frames : List Frame} (hvalid : ∀ frame ∈ frames, code.Valid frame)
    {stream : List Symbol} (hinitialPart : frames.flatMap code.encode <+: stream) :
    frames <+: (code.decodeAll stream).1 := by
  obtain ⟨rest, rfl⟩ := hinitialPart
  rw [code.decodeAll_append hvalid rest]
  exact List.prefix_append _ _

/-- **Cut streams.** Of a concatenation of valid frames that breaks off anywhere, exactly the frames that
are there as a whole are decoded; what is left is less than the next frame. -/
theorem decodeAll_of_prefix {frames : List Frame} (hvalid : ∀ frame ∈ frames, code.Valid frame)
    (hnil : code.decode [] = none) {stream : List Symbol} (hcut : stream <+: frames.flatMap code.encode) :
    ∃ rest part, frames = (code.decodeAll stream).1 ++ rest ∧
      stream = (code.decodeAll stream).1.flatMap code.encode ++ part ∧
      part <+: rest.flatMap code.encode ∧
      ∀ frame ∈ rest.head?, part.length < (code.encode frame).length := by
  obtain ⟨hread, hstream, hnone⟩ := code.decodeAll_spec stream
  have hinitialPart : (code.decodeAll stream).1 <+: frames := by
    have hsplit : (code.decodeAll stream).1.flatMap code.encode <+: frames.flatMap code.encode :=
      List.IsPrefix.trans ⟨_, hstream.symm⟩ hcut
    have hdecoded := code.prefix_decodeAll hread hsplit
    rwa [code.decodeAll_flatMap_encode hvalid hnil] at hdecoded
  obtain ⟨rest, hrest⟩ := hinitialPart
  have hpart : (code.decodeAll stream).2 <+: rest.flatMap code.encode := by
    rw [hstream, ← hrest, List.flatMap_append] at hcut
    exact (List.prefix_append_right_inj _).mp hcut
  refine ⟨rest, _, hrest.symm, hstream, hpart, fun frame hframe => ?_⟩
  -- a whole frame at the front of what is left would have been decoded
  obtain ⟨later, rfl⟩ := List.head?_eq_some_iff.mp hframe
  refine Nat.not_le.mp fun hlong => ?_
  obtain ⟨tail, htail⟩ : code.encode frame <+: (code.decodeAll stream).2 :=
    List.prefix_of_prefix_length_le ⟨later.flatMap code.encode, List.flatMap_cons.symm⟩ hpart hlong
  have hfirst : code.Valid frame := hvalid frame (by rw [← hrest]; simp)
  have hdecode := code.decode_encode frame tail hfirst
  rw [htail, hnone] at hdecode
  cases hdecode

end Code

end Framing
