import GBerry.Foundation.Framing

/-!
# Queues of messages on a stream

A stream carries the messages that were written and have not been received.
What a reader holds and what is still under way are together the frames of these
messages, so that a stream behaves as a queue of messages does.
-/

namespace GBerry.Foundation.FramedReader

variable {ρ α μ ω : Type*} (R : FramedReader ρ α μ ω)

/-- `stream` is under way to a reader, and `msgs` have not been received. -/
def Carries (msgs : List μ) (stream : List α) (r : ρ) : Prop :=
  ∃ p, R.Holds p r ∧ Unfinished R.encode msgs p ∧ p ++ stream = msgs.flatMap R.encode

namespace Carries

variable {R} {msgs : List μ} {stream : List α} {r : ρ}

theorem empty (hr : R.Holds [] r) : R.Carries [] [] r := ⟨[], hr, rfl, rfl⟩

theorem write (h : R.Carries msgs stream r) (m : μ) :
    R.Carries (msgs ++ [m]) (stream ++ R.encode m) r := by
  obtain ⟨p, hr, hp, hbytes⟩ := h
  refine ⟨p, hr, ?_, ?_⟩
  · cases msgs with
    | nil =>
        obtain rfl : p = [] := hp
        exact R.unfinished_nil [m]
    | cons first msgs => exact hp
  · rw [← List.append_assoc, hbytes, List.flatMap_append, List.flatMap_singleton]

theorem writeAll (h : R.Carries msgs stream r) (written : List μ) :
    R.Carries (msgs ++ written) (stream ++ written.flatMap R.encode) r := by
  induction written generalizing msgs stream with
  | nil => simpa using h
  | cons m written ih =>
      have hnext := ih (h.write m)
      simpa only [List.append_assoc, List.singleton_append, List.flatMap_cons] using hnext

theorem receive {arriving rest : List α} (h : R.Carries msgs (arriving ++ rest) r) :
    ∃ done todo, msgs = done ++ todo ∧ (R.receive r arriving).2 = done.map R.signal ∧
      R.Carries todo rest (R.receive r arriving).1 := by
  obtain ⟨p, hr, hp, hbytes⟩ := h
  have hpre : p ++ arriving <+: msgs.flatMap R.encode := by
    rw [← hbytes, ← List.append_assoc]
    exact List.prefix_append _ _
  obtain ⟨done, todo, p', r', rfl, hdone, hp', hreceive, hholds⟩ :=
    R.receive_frames hr hp hpre
  rw [hreceive]
  refine ⟨done, todo, rfl, rfl, p', hholds, hp', ?_⟩
  rw [← List.append_assoc, hdone, List.flatMap_append, List.append_assoc] at hbytes
  exact List.append_cancel_left hbytes

end Carries

end GBerry.Foundation.FramedReader
