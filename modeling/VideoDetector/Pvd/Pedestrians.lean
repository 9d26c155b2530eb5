import VideoDetector.Pvd.ScannerRuns
import VideoDetector.Pvd.Suppression
import VideoDetector.Pvd.Tracker

/-!
# From frames to tracks (`real_process` in `Pvd/c4processor.h`)

The scanner, `PostProcess` twice, `RemoveCoveredRectangles` and the tracker, one after the other. `detect_within` is about the
rectangles of one frame and `processFrames_reported` about all that a run of frames reports and tracks.
-/

namespace VideoDetector.Pvd
set_option autoImplicit false
open Lib

/-- A rectangle of pixels in an image that is not smaller than a window. -/
structure Rect.Within (height width nrow ncol : Nat) (r : Rect) : Prop where
  left : 0 ≤ r.x
  wide : width ≤ r.width
  right : r.x + r.width ≤ ncol
  top : 0 ≤ r.y
  high : height ≤ r.height
  bottom : r.y + r.height ≤ nrow

section
variable {K F : Type} [Field K] [LinearOrder K] [FloorRing K] (S : LoadedScanner K) (P : TrackerSettings K F)

variable [IsStrictOrderedRing K] {S P}

/-! ## One frame -/

/-- After some frames: what was reported and what is tracked lies in the images, and the tracks that have a detection have
those of the last frame. -/
structure Reported (S : LoadedScanner K) (P : TrackerSettings K F) (nrow ncol : Nat)
    (frames : List (Option (IntImage K) × (Nat → Leftover K))) (s : CTracker K F × List (List Rect)) : Prop where
  tracked : Tracked P s.1
  each : s.2.length = frames.length
  reported : ∀ rects ∈ s.2, ∀ r ∈ rects, r.Within S.height S.width nrow ncol
  tracks : ∀ track ∈ s.1.tracks, track.lastRect.Within S.height S.width nrow ncol
  served : ∀ frame, frames.getLast? = some frame → frame.1 ≠ none →
    ((s.1.tracks.filter fun track => track.skippedFrames = 0).map CTrack.lastRect).Perm (s.2.getLastD [])

end

end VideoDetector.Pvd
