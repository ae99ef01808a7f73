import LiveTrace.Proofs.Trace.Unwinding
import LiveTrace.Trace.Monitor

/-
  What may be asked of any sink: unwinding closes all that is open, and is nothing where nothing is
  open. At every other call a sink may do as it likes.
-/
namespace LiveTrace

/-- A sink that keeps to what unwinding is for. -/
class LawfulSink (σ : Type) [TraceSink σ] : Prop where
  depth_unwind (s : σ) : TraceSink.depth (TraceSink.unwind s).sink = 0
  roots_unwind (s : σ) (h : TraceSink.depth s = 0) :
    TraceSink.roots (TraceSink.unwind s).sink = TraceSink.roots s

theorem Recorder.unwind_of_depth_eq_zero (r : Recorder) (h : r.depth = 0) : r.unwind.1 = r := by
  obtain ⟨roots, stack⟩ := r
  cases stack with
  | nil => rfl
  | cons top below => exact absurd h (Nat.succ_ne_zero below.length)

theorem Recorder.depth_unwind (r : Recorder) : r.unwind.1.depth = 0 := by
  rw [unwind_eq]
  rfl

instance : LawfulSink Recorder where
  depth_unwind r := r.depth_unwind
  roots_unwind r h := congrArg Recorder.roots (r.unwind_of_depth_eq_zero h)

instance : LawfulSink DetachedRecorder where
  depth_unwind s := s.recorder.depth_unwind
  roots_unwind s h := congrArg Recorder.roots (s.recorder.unwind_of_depth_eq_zero h)

instance : LawfulSink Monitor where
  depth_unwind m := m.recorder.depth_unwind
  roots_unwind m h := congrArg Recorder.roots (m.recorder.unwind_of_depth_eq_zero h)

end LiveTrace
