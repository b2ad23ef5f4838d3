import InferenceService.Lib.Loop
import Mathlib.Data.List.Infix
import Mathlib.Tactic.Ring

/-!
# `run_bagel_workload_manifest.py`: the size of an image

PNG and WebP files have their size at a fixed place. In a JPEG file it is in the
frame header, which is found by a scan over the segments.
-/

namespace InferenceService

open Loop

abbrev Bytes := List UInt8

/-- `int.from_bytes(data, "big")`. -/
def fromBig (data : Bytes) : Nat := data.foldl (fun n byte => 256 * n + byte.toNat) 0

def fromLittle (data : Bytes) : Nat := fromBig data.reverse

/-- `data[start:stop]`. -/
def slice (data : Bytes) (start stop : Nat) : Bytes := (data.drop start).take (stop - start)

def startOfFrame : List UInt8 :=
  [0xC0, 0xC1, 0xC2, 0xC3, 0xC5, 0xC6, 0xC7, 0xC9, 0xCA, 0xCB, 0xCD, 0xCE, 0xCF]

/-- The heads of the two loops of the scan, and its ends; `raised` is an
`IndexError`. -/
inductive Scan where
  | scanning (offset : Nat)
  | filling (marker : UInt8) (offset : Nat)
  | returned (width height : Option Nat)
  | raised
deriving DecidableEq, Repr

/-- What comes after the inner loop. -/
def scanSegment (data : Bytes) (marker : UInt8) (offset : Nat) : Round Scan :=
  if marker = 0xD8 ∨ marker = 0xD9 then .next (.scanning offset)
  else if offset + 2 > data.length then .leave (.returned none none)
  else
    let segmentLength := fromBig (slice data offset (offset + 2))
    if segmentLength < 2 ∨ offset + segmentLength > data.length then .leave (.returned none none)
    else if marker ∈ startOfFrame then
      let height := fromBig (slice data (offset + 3) (offset + 5))
      let width := fromBig (slice data (offset + 5) (offset + 7))
      .leave (.returned (some width) (some height))
    else .next (.scanning (offset + segmentLength))

def scanRound (data : Bytes) : Scan → Round Scan
  | .scanning offset =>
    if offset + 9 < data.length then
      match data[offset]? with
      | none => .leave .raised
      | some byte =>
        if byte ≠ 0xFF then .next (.scanning (offset + 1))
        else match data[offset + 1]? with
          | none => .leave .raised
          | some marker => .next (.filling marker (offset + 2))
    else .leave (.returned none none)
  | .filling marker offset =>
    if marker = 0xFF ∧ offset < data.length then
      match data[offset]? with
      | none => .leave .raised
      | some marker => .next (.filling marker (offset + 1))
    else scanSegment data marker offset
  | s => .leave s

/-- `none` is a scan that goes on for more than `fuel` rounds. -/
def imageDimensions (fuel : Nat) (file : Bytes) : Option Scan :=
  let data := file.take 65536
  if [0x89, 0x50, 0x4E, 0x47, 0x0D, 0x0A, 0x1A, 0x0A].isPrefixOf data ∧ 24 ≤ data.length then
    some (.returned (some (fromBig (slice data 16 20))) (some (fromBig (slice data 20 24))))
  else if [0x52, 0x49, 0x46, 0x46].isPrefixOf data ∧ slice data 8 12 = [0x57, 0x45, 0x42, 0x50] ∧
      30 ≤ data.length ∧ slice data 12 16 = [0x56, 0x50, 0x38, 0x58] then
    some (.returned (some (1 + fromLittle (slice data 24 27))) (some (1 + fromLittle (slice data 27 30))))
  else if [0xFF, 0xD8].isPrefixOf data then run (scanRound data) fuel (.scanning 2)
  else some (.returned none none)

/-! ## Headers -/

def toBig (n : Nat) : Bytes := [UInt8.ofNat (n / 256), UInt8.ofNat n]

/-- A marker that a segment with a length follows, other than a frame header. -/
def PlainMarker (marker : UInt8) : Prop :=
  marker ≠ 0x00 ∧ marker ≠ 0x01 ∧ ¬ (0xD0 ≤ marker ∧ marker ≤ 0xD9) ∧ marker ≠ 0xFF ∧ marker ∉ startOfFrame

instance (marker : UInt8) : Decidable (PlainMarker marker) :=
  inferInstanceAs (Decidable (marker ≠ 0x00 ∧ marker ≠ 0x01 ∧ ¬ (0xD0 ≤ marker ∧ marker ≤ 0xD9) ∧ marker ≠ 0xFF ∧
    marker ∉ startOfFrame))

structure Segment where
  fill : Nat
  marker : UInt8
  payload : Bytes
  marker_plain : PlainMarker marker
  length_le : payload.length + 2 ≤ 65535

def Segment.bytes (s : Segment) : Bytes :=
  List.replicate (s.fill + 1) 0xFF ++ s.marker :: (toBig (s.payload.length + 2) ++ s.payload)

structure FrameHeader where
  fill : Nat
  marker : UInt8
  precision : UInt8
  height : UInt16
  width : UInt16
  components : List (UInt8 × UInt8 × UInt8)
  marker_mem : marker ∈ startOfFrame
  components_pos : 0 < components.length
  components_le : components.length ≤ 255

def FrameHeader.bytes (f : FrameHeader) : Bytes :=
  List.replicate (f.fill + 1) 0xFF ++ f.marker :: (toBig (8 + 3 * f.components.length) ++
    f.precision :: (toBig f.height.toNat ++ (toBig f.width.toNat ++
      UInt8.ofNat f.components.length :: f.components.flatMap fun c => [c.1, c.2.1, c.2.2])))

def jpegHeader (segments : List Segment) (frame : FrameHeader) : Bytes :=
  0xFF :: 0xD8 :: (segments.flatMap Segment.bytes ++ frame.bytes)

/-! ## The scan ends -/

def Scan.Running : Scan → Prop
  | .scanning _ => True
  | .filling _ _ => True
  | _ => False

/-- What the scan has left, with the inner loop before the outer one. -/
def Scan.left (data : Bytes) : Scan → Nat
  | .scanning offset => 2 * (data.length - offset) + 1
  | .filling _ offset => 2 * (data.length - offset) + 2
  | _ => 0

@[simp] theorem left_scanning (data : Bytes) (offset : Nat) :
    (Scan.scanning offset).left data = 2 * (data.length - offset) + 1 := rfl

@[simp] theorem left_filling (data : Bytes) (marker : UInt8) (offset : Nat) :
    (Scan.filling marker offset).left data = 2 * (data.length - offset) + 2 := rfl

/-- A round returns, or it goes on behind where it was. -/
def Goes (data : Bytes) (s : Scan) (r : Round Scan) : Prop :=
  (∃ width height, r = .leave (.returned width height)) ∨ ∃ t, r = .next t ∧ t.Running ∧ t.left data < s.left data

section
variable (data : Bytes)

theorem scanSegment_goes (marker : UInt8) (offset : Nat) :
    Goes data (.filling marker offset) (scanSegment data marker offset) := by
  unfold scanSegment
  by_cases hstandalone : marker = 0xD8 ∨ marker = 0xD9
  · rw [if_pos hstandalone]
    exact .inr ⟨_, rfl, trivial, Nat.lt_succ_self _⟩
  · rw [if_neg hstandalone]
    by_cases hshort : offset + 2 > data.length
    · rw [if_pos hshort]
      exact .inl ⟨_, _, rfl⟩
    · rw [if_neg hshort]
      by_cases hlength : fromBig (slice data offset (offset + 2)) < 2 ∨
          offset + fromBig (slice data offset (offset + 2)) > data.length
      · simp only [if_pos hlength]
        exact .inl ⟨_, _, rfl⟩
      · simp only [if_neg hlength]
        by_cases hframe : marker ∈ startOfFrame
        · simp only [if_pos hframe]
          exact .inl ⟨_, _, rfl⟩
        · simp only [if_neg hframe]
          refine .inr ⟨_, rfl, trivial, ?_⟩
          simp only [left_scanning, left_filling]
          omega

theorem scanRound_goes {s : Scan} (hs : s.Running) : Goes data s (scanRound data s) := by
  cases s with
  | scanning offset =>
    rw [scanRound]
    by_cases hguard : offset + 9 < data.length
    · have hbyte : offset < data.length := by omega
      have hmarker : offset + 1 < data.length := by omega
      simp only [if_pos hguard, List.getElem?_eq_getElem hbyte, List.getElem?_eq_getElem hmarker]
      by_cases hfill : data[offset] = 0xFF
      · simp only [hfill, ne_eq, not_true_eq_false, if_false]
        refine .inr ⟨_, rfl, trivial, ?_⟩
        simp only [left_scanning, left_filling]
        omega
      · simp only [hfill, ne_eq, not_false_eq_true, if_true]
        refine .inr ⟨_, rfl, trivial, ?_⟩
        simp only [left_scanning]
        omega
    · rw [if_neg hguard]
      exact .inl ⟨_, _, rfl⟩
  | filling marker offset =>
    rw [scanRound]
    by_cases hguard : marker = 0xFF ∧ offset < data.length
    · simp only [if_pos hguard, List.getElem?_eq_getElem hguard.2]
      refine .inr ⟨_, rfl, trivial, ?_⟩
      simp only [left_filling]
      omega
    · rw [if_neg hguard]
      exact scanSegment_goes data marker offset
  | returned width height => exact hs.elim
  | raised => exact hs.elim

theorem scan_returns : ∃ width height, ∀ fuel, 2 * data.length + 1 < fuel →
    run (scanRound data) fuel (.scanning 2) = some (.returned width height) := by
  have hgoes : ∀ s t, s.Running → scanRound data s = .next t → t.Running ∧ t.left data < s.left data := by
    intro s t hs ht
    rcases scanRound_goes data hs with ⟨width, height, hleave⟩ | ⟨u, hnext, hu⟩
    · rw [hleave] at ht
      cases ht
    · rw [hnext] at ht
      cases ht
      exact hu
  have hrunning : ∀ s t : Scan, s.Running → scanRound data s = .next t → t.Running := fun s t hs ht =>
    (hgoes s t hs ht).1
  have hlower : ∀ s t : Scan, s.Running → scanRound data s = .next t → t.left data < s.left data := fun s t hs ht =>
    (hgoes s t hs ht).2
  have hleft : (Scan.scanning 2).left data ≤ 2 * data.length + 1 := by
    simp only [left_scanning]
    omega
  have hstart : (Scan.scanning 2).Running := trivial
  obtain ⟨u, hu⟩ := run_terminates hrunning hlower _ hstart hleft
  obtain ⟨t, ht, hleave⟩ := run_invariant hrunning _ hstart (hu _ (Nat.lt_succ_self _))
  rcases scanRound_goes data ht with ⟨width, height, hreturned⟩ | ⟨v, hnext, _⟩
  · rw [hleave] at hreturned
    cases hreturned
    exact ⟨width, height, hu⟩
  · rw [hleave] at hnext
    cases hnext

end

theorem imageDimensions_returns (file : Bytes) :
    ∃ width height, ∀ fuel, 131073 < fuel → imageDimensions fuel file = some (.returned width height) := by
  have hlength : (file.take 65536).length ≤ 65536 := List.length_take_le _ _
  obtain ⟨width, height, hscan⟩ := scan_returns (file.take 65536)
  unfold imageDimensions
  simp only
  split
  · exact ⟨_, _, fun _ _ => rfl⟩
  · split
    · exact ⟨_, _, fun _ _ => rfl⟩
    · split
      · exact ⟨width, height, fun fuel hf => hscan fuel (by omega)⟩
      · exact ⟨_, _, fun _ _ => rfl⟩

/-! ## The scan over a header -/

theorem fromBig_toBig {n : Nat} (h : n < 65536) : fromBig (toBig n) = n := by
  simp [fromBig, toBig]
  omega

theorem slice_of_drop {data w : Bytes} {offset : Nat} (h : data.drop offset = w) (start stop : Nat) :
    slice data (offset + start) (offset + stop) = slice w start stop := by
  unfold slice
  rw [← List.drop_drop, h, Nat.add_sub_add_left]

theorem length_of_drop {data w : Bytes} {offset : Nat} (h : data.drop offset = w) (hw : w ≠ []) :
    data.length = offset + w.length := by
  have hlength := congrArg List.length h
  have hpos := List.length_pos_of_ne_nil hw
  rw [List.length_drop] at hlength
  omega

theorem getElem?_of_drop {data w : Bytes} {offset : Nat} (h : data.drop offset = w) (i : Nat) :
    data[offset + i]? = w[i]? := by
  rw [← h, List.getElem?_drop]

theorem drop_of_drop {data u v : Bytes} {offset : Nat} (h : data.drop offset = u ++ v) :
    data.drop (offset + u.length) = v := by
  rw [← List.drop_drop, h, List.drop_left]

section
variable {data w : Bytes} {marker : UInt8} {offset : Nat}

theorem scanRound_scanning (h : data.drop offset = 0xFF :: marker :: w) (hw : 8 ≤ w.length) :
    scanRound data (.scanning offset) = .next (.filling marker (offset + 2)) := by
  have hlength := length_of_drop h (List.cons_ne_nil _ _)
  have hguard : offset + 9 < data.length := by
    simp at hlength
    omega
  have hbyte : data[offset]? = some 0xFF := getElem?_of_drop h 0
  have hmarker : data[offset + 1]? = some marker := getElem?_of_drop h 1
  rw [scanRound, if_pos hguard, hbyte, hmarker]
  rfl

theorem scanRound_filling (h : data.drop offset = marker :: w) :
    scanRound data (.filling 0xFF offset) = .next (.filling marker (offset + 1)) := by
  have hlength := length_of_drop h (List.cons_ne_nil _ _)
  have hguard : offset < data.length := by
    simp at hlength
    omega
  have hmarker : data[offset]? = some marker := getElem?_of_drop h 0
  rw [scanRound, if_pos ⟨rfl, hguard⟩, hmarker]

theorem filling_reached {fill : Nat} (h : data.drop offset = List.replicate fill 0xFF ++ marker :: w) :
    Reached (scanRound data) (.filling 0xFF offset) (.filling marker (offset + fill + 1)) := by
  induction fill generalizing offset with
  | zero => exact .next .start (scanRound_filling h)
  | succ fill ih =>
    have hround : scanRound data (.filling 0xFF offset) = .next (.filling 0xFF (offset + 1)) := scanRound_filling h
    have hdrop : data.drop (offset + 1) = List.replicate fill 0xFF ++ marker :: w :=
      drop_of_drop (u := [0xFF]) h
    have hreached := ih hdrop
    rw [Nat.add_right_comm offset 1 fill] at hreached
    exact Reached.trans (.next .start hround) hreached

/-- The marker of a segment is found behind the bytes that fill. -/
theorem marker_reached {fill : Nat} (h : data.drop offset = List.replicate (fill + 1) 0xFF ++ marker :: w)
    (hw : 8 ≤ w.length) :
    Reached (scanRound data) (.scanning offset) (.filling marker (offset + fill + 2)) ∧
      data.drop (offset + fill + 2) = w := by
  have hdrop : data.drop (offset + fill + 2) = w := by
    have hsplit : data.drop offset = (List.replicate (fill + 1) 0xFF ++ [marker]) ++ w := by
      rw [h, List.append_assoc]
      rfl
    have hbehind := drop_of_drop hsplit
    rw [List.length_append, List.length_replicate] at hbehind
    exact hbehind
  refine ⟨?_, hdrop⟩
  cases fill with
  | zero => exact .next .start (scanRound_scanning h hw)
  | succ fill =>
    have hround : scanRound data (.scanning offset) = .next (.filling 0xFF (offset + 2)) :=
      scanRound_scanning h (by simp; omega)
    have hfill : data.drop (offset + 2) = List.replicate fill 0xFF ++ marker :: w :=
      drop_of_drop (u := [0xFF, 0xFF]) h
    have hreached := filling_reached hfill
    rw [show offset + 2 + fill + 1 = offset + (fill + 1) + 2 by omega] at hreached
    exact Reached.trans (.next .start hround) hreached

end

/-! ## Segments and the frame header -/

section
variable {data rest : Bytes} {offset : Nat}

theorem segmentLength_eq {n : Nat} (hn : n < 65536) (h : data.drop offset = toBig n ++ rest) :
    fromBig (slice data offset (offset + 2)) = n := by
  have hslice := slice_of_drop h 0 2
  have htwo : slice (toBig n ++ rest) 0 2 = toBig n := rfl
  rw [Nat.add_zero, htwo] at hslice
  rw [hslice, fromBig_toBig hn]

theorem plainMarker_ne {marker : UInt8} (h : PlainMarker marker) : marker ≠ 0xFF ∧ ¬ (marker = 0xD8 ∨ marker = 0xD9) := by
  obtain ⟨_, _, hrange, hfill, _⟩ := h
  refine ⟨hfill, fun hstandalone => hrange ?_⟩
  rcases hstandalone with rfl | rfl
  · decide
  · decide

theorem scanSegment_plain (s : Segment)
    (h : data.drop offset = toBig (s.payload.length + 2) ++ (s.payload ++ rest)) :
    scanSegment data s.marker offset = .next (.scanning (offset + (s.payload.length + 2))) := by
  have hle := s.length_le
  have hlength := length_of_drop h (List.cons_ne_nil _ _)
  have hsegment := segmentLength_eq (by omega) h
  simp only [toBig, List.length_append, List.length_cons, List.length_nil] at hlength
  obtain ⟨_, hstandalone⟩ := plainMarker_ne s.marker_plain
  unfold scanSegment
  rw [if_neg hstandalone, if_neg (by omega)]
  simp only [hsegment]
  rw [if_neg (by omega), if_neg s.marker_plain.2.2.2.2]

theorem segment_reached (s : Segment) (h : data.drop offset = s.bytes ++ rest) (hrest : 10 ≤ rest.length) :
    Reached (scanRound data) (.scanning offset) (.scanning (offset + s.bytes.length)) := by
  have hbytes : data.drop offset =
      List.replicate (s.fill + 1) 0xFF ++ s.marker :: (toBig (s.payload.length + 2) ++ (s.payload ++ rest)) := by
    rw [h, Segment.bytes]
    simp
  obtain ⟨hreached, hdrop⟩ := marker_reached hbytes (by simp; omega)
  have hround : scanRound data (.filling s.marker (offset + s.fill + 2)) =
      .next (.scanning (offset + s.fill + 2 + (s.payload.length + 2))) := by
    rw [scanRound, if_neg fun hguard => (plainMarker_ne s.marker_plain).1 hguard.1, scanSegment_plain s hdrop]
  have hlength : offset + s.bytes.length = offset + s.fill + 2 + (s.payload.length + 2) := by
    simp [Segment.bytes, toBig]
    omega
  rw [hlength]
  exact .next hreached hround

theorem segments_reached (segments : List Segment) (h : data.drop offset = segments.flatMap Segment.bytes ++ rest)
    (hrest : 10 ≤ rest.length) :
    Reached (scanRound data) (.scanning offset) (.scanning (offset + (segments.flatMap Segment.bytes).length)) := by
  induction segments generalizing offset with
  | nil => exact .start
  | cons s segments ih =>
    rw [List.flatMap_cons, List.append_assoc] at h
    have hsegment := segment_reached s h (by rw [List.length_append]; omega)
    rw [List.flatMap_cons, List.length_append, ← Nat.add_assoc]
    exact hsegment.trans (ih (drop_of_drop h))

theorem startOfFrame_ne {marker : UInt8} (h : marker ∈ startOfFrame) :
    marker ≠ 0xFF ∧ ¬ (marker = 0xD8 ∨ marker = 0xD9) := by
  have hall : startOfFrame.all (fun m => m ≠ 0xFF ∧ ¬ (m = 0xD8 ∨ m = 0xD9)) = true := by decide
  simpa using List.all_eq_true.mp hall marker h

theorem scanSegment_frame {marker : UInt8} (hmarker : marker ∈ startOfFrame) {n height width : Nat} {precision : UInt8}
    {tail : Bytes} (hn : n < 65536) (hheight : height < 65536) (hwidth : width < 65536) (htail : n = tail.length + 7)
    (h : data.drop offset = toBig n ++ precision :: (toBig height ++ (toBig width ++ (tail ++ rest)))) :
    scanSegment data marker offset = .leave (.returned (some width) (some height)) := by
  have hlength := length_of_drop h (List.cons_ne_nil _ _)
  have hsegment := segmentLength_eq hn h
  simp only [toBig, List.length_append, List.length_cons, List.length_nil] at hlength
  have hheights : slice data (offset + 3) (offset + 5) = toBig height := slice_of_drop h 3 5
  have hwidths : slice data (offset + 5) (offset + 7) = toBig width := slice_of_drop h 5 7
  unfold scanSegment
  rw [if_neg (startOfFrame_ne hmarker).2, if_neg (by omega)]
  simp only [hsegment]
  rw [if_neg (by omega), if_pos hmarker, hheights, hwidths, fromBig_toBig hheight, fromBig_toBig hwidth]

theorem length_components (f : FrameHeader) :
    (f.components.flatMap fun c => [c.1, c.2.1, c.2.2]).length = 3 * f.components.length := by
  rw [List.length_flatMap]
  simp [Nat.mul_comm]

theorem frame_reached (f : FrameHeader) (h : data.drop offset = f.bytes ++ rest) :
    ∃ s, Reached (scanRound data) (.scanning offset) s ∧
      scanRound data s = .leave (.returned (some f.width.toNat) (some f.height.toNat)) := by
  have hpos := f.components_pos
  have hle := f.components_le
  have hlength := length_components f
  have hbytes : data.drop offset =
      List.replicate (f.fill + 1) 0xFF ++ f.marker :: (toBig (8 + 3 * f.components.length) ++
        f.precision :: (toBig f.height.toNat ++ (toBig f.width.toNat ++
          ((UInt8.ofNat f.components.length :: f.components.flatMap fun c => [c.1, c.2.1, c.2.2]) ++ rest)))) := by
    rw [h, FrameHeader.bytes]
    simp
  obtain ⟨hreached, hdrop⟩ := marker_reached hbytes (by simp [toBig])
  refine ⟨_, hreached, ?_⟩
  rw [scanRound, if_neg fun hguard => (startOfFrame_ne f.marker_mem).1 hguard.1]
  apply scanSegment_frame f.marker_mem (by omega) f.height.toNat_lt f.width.toNat_lt _ hdrop
  rw [List.length_cons, hlength]
  omega

end

/-- Every file is read to an end without an index outside the data, and a JPEG
header gives the size in its frame header. -/
theorem imageDimensions_correct :
    (∀ file, ∃ width height, ∀ fuel, 131073 < fuel → imageDimensions fuel file = some (.returned width height)) ∧
      ∀ segments frame after, (jpegHeader segments frame).length ≤ 65536 → ∀ fuel, 131073 < fuel →
        imageDimensions fuel (jpegHeader segments frame ++ after) =
          some (.returned (some frame.width.toNat) (some frame.height.toNat)) := by
  refine ⟨imageDimensions_returns, ?_⟩
  intro segments frame after hheader fuel hfuel
  have hdata : ∃ rest, (jpegHeader segments frame ++ after).take 65536 =
      0xFF :: 0xD8 :: (segments.flatMap Segment.bytes ++ (frame.bytes ++ rest)) := by
    refine ⟨after.take (65536 - (jpegHeader segments frame).length), ?_⟩
    rw [List.take_append, List.take_of_length_le hheader]
    simp [jpegHeader]
  obtain ⟨rest, hdata⟩ := hdata
  obtain ⟨width, height, hreturns⟩ := imageDimensions_returns (jpegHeader segments frame ++ after)
  have hscan : ∀ fuel, imageDimensions fuel (jpegHeader segments frame ++ after) =
      run (scanRound ((jpegHeader segments frame ++ after).take 65536)) fuel (.scanning 2) := by
    intro fuel
    unfold imageDimensions
    simp only [hdata]
    rfl
  have hframe : 10 ≤ (frame.bytes ++ rest).length := by
    simp [FrameHeader.bytes, toBig]
    omega
  have hbehind : ((jpegHeader segments frame ++ after).take 65536).drop 2 =
      segments.flatMap Segment.bytes ++ (frame.bytes ++ rest) := by
    rw [hdata]
    rfl
  have hsegments := segments_reached segments hbehind hframe
  obtain ⟨s, hs, hleave⟩ := frame_reached frame (drop_of_drop hbehind)
  obtain ⟨n, hn⟩ := run_of_reached (hsegments.trans hs) hleave
  -- the result with this much fuel is the result with any fuel that is enough
  have hlarge := hn (n + 131074) (by omega)
  rw [← hscan, hreturns (n + 131074) (by omega)] at hlarge
  rw [hreturns fuel hfuel, hlarge]

theorem imageDimensions_correct_comment :
    imageDimensions 131074 (jpegHeader [⟨2, 0xFE, [0xFF, 0xC0], by decide, by decide⟩]
      ⟨0, 0xC2, 8, 480, 640, [(1, 17, 0)], by decide, by decide, by decide⟩ ++ [0xFF, 0xD9]) =
        some (.returned (some 640) (some 480)) :=
  imageDimensions_correct.2 [⟨2, 0xFE, [0xFF, 0xC0], by decide, by decide⟩]
    ⟨0, 0xC2, 8, 480, 640, [(1, 17, 0)], by decide, by decide, by decide⟩ [0xFF, 0xD9] (by decide) 131074 (by decide)

end InferenceService
