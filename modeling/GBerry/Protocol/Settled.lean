import GBerry.Client.ChannelTable
import GBerry.Protocol.System
import GBerry.Server.ChannelManager.PlayerMessages

/-!
# Clients and what is on its way to them

A connection settles when its client has received all that is under way.  The
settled client and its answers do not change when a message is delivered to the
client, so that the invariants of the protocol are stated about them; when
nothing is under way they are the client itself and no answers.
-/

namespace GBerry.Protocol

open GBerry.Common
open GBerry.Foundation
open GBerry.Server
open GBerry.Client
open ClientChannelManager (ROOT_CHANNEL)

variable {β : Type} [QByteArray β]

def Closes (k : Int) (frame : Frame β) : Prop :=
  frame.1 = k ∧ isCommand "CloseChannel" frame.2

def Opens (k : Int) (frame : Frame β) : Prop :=
  frame.1 = k ∧ opensPlayer frame.2

def Accepts (k : Int) (frame : Frame β) : Prop :=
  frame.1 = k ∧ isCommand "OpenChannelAccepted" frame.2

def receive (client : ClientChannelManager) (frame : Frame β) :
    ClientChannelManager × List (Frame β) :=
  ((client.processMessage frame.1 frame.2).1,
    framesOf (client.processMessage frame.1 frame.2).2)

def receiveAll :
    ClientChannelManager → List (Frame β) → ClientChannelManager × List (Frame β)
  | client, [] => (client, [])
  | client, frame :: frames =>
      let first := receive client frame
      let others := receiveAll first.1 frames
      (others.1, first.2 ++ others.2)

namespace Peer

/-- The client once it has received what is under way to it. -/
def settled (p : Peer β) : ClientChannelManager := (receiveAll p.client p.toClient).1

def answers (p : Peer β) : List (Frame β) :=
  p.toServer ++ (receiveAll p.client p.toClient).2

end Peer

section Receive

variable {m : ClientChannelManager} {k : Int} {frame : Frame β}
  {frames frames' : List (Frame β)}

theorem receiveAll_append :
    receiveAll m (frames ++ frames') =
      ((receiveAll (receiveAll m frames).1 frames').1,
        (receiveAll m frames).2 ++ (receiveAll (receiveAll m frames).1 frames').2) := by
  induction frames generalizing m with
  | nil => rfl
  | cons frame frames ih => simp only [List.cons_append, receiveAll, ih, List.append_assoc]

theorem attached_receiveAll (hm : m.Attached) : (receiveAll m frames).1.Attached := by
  induction frames generalizing m with
  | nil => exact hm
  | cons frame frames ih => exact ih (hm.processMessage frame.1 frame.2)

theorem mem_receive (hm : m.Attached) :
    k ∈ (receive m frame).1.playerChannels ↔
      k ∈ m.playerChannels ∧ ¬ Closes k frame ∨
      k ∉ m.playerChannels ∧ k ≠ ROOT_CHANNEL ∧ Opens k frame :=
  ClientChannelManager.mem_processMessage hm

theorem isCommand_of_opensPlayer {msg : β} (h : opensPlayer msg = true) :
    isCommand "OpenChannel" msg = true := by
  unfold isCommand
  cases hjson : QByteArray.fromJson msg with
  | none => simp [opensPlayer, hjson] at h
  | some json =>
      simp only [opensPlayer, hjson, Bool.and_eq_true] at h
      simp [h.1]

theorem opensPlayer_createOpenChannelCommand (playerMeta : PlayerMeta) :
    opensPlayer (MessageFactory.createOpenChannelCommand playerMeta : β) = true := by
  simp [opensPlayer, MessageFactory.createOpenChannelCommandJson,
    JsonObject.isCommand_cons_command, JsonObject.contains]

theorem receive_accepts (hroot : k ≠ ROOT_CHANNEL) (hk : k ∉ m.playerChannels)
    (hopens : Opens k frame) : ∃ answer ∈ (receive m frame).2, Accepts k answer := by
  obtain ⟨rfl, hopens⟩ := hopens
  have haccept := ClientChannelManager.processMessage_accepts hroot hk hopens
  refine ⟨_, List.mem_filterMap.mpr ⟨_, haccept, rfl⟩, rfl, ?_⟩
  simp

theorem receiveAll_keeps (hm : m.Attached) (hk : k ∈ m.playerChannels)
    (hclose : ∀ frame ∈ frames, ¬ Closes k frame) :
    k ∈ (receiveAll m frames).1.playerChannels := by
  induction frames generalizing m with
  | nil => exact hk
  | cons frame frames ih =>
      have hhead := hclose frame List.mem_cons_self
      have hnext := (mem_receive hm).mpr (.inl ⟨hk, hhead⟩)
      apply ih (hm.processMessage frame.1 frame.2) hnext
      intro frame' hframe'
      exact hclose frame' (List.mem_cons_of_mem _ hframe')

theorem receiveAll_opens (hm : m.Attached) (hroot : k ≠ ROOT_CHANNEL)
    (hk : k ∉ m.playerChannels) (hclose : ∀ frame ∈ frames, ¬ Closes k frame)
    (hopens : ∃ frame ∈ frames, Opens k frame) :
    k ∈ (receiveAll m frames).1.playerChannels ∧
      ∃ answer ∈ (receiveAll m frames).2, Accepts k answer := by
  induction frames generalizing m with
  | nil => simp at hopens
  | cons frame frames ih =>
      have hm' : (receive m frame).1.Attached := hm.processMessage frame.1 frame.2
      have htail : ∀ frame' ∈ frames, ¬ Closes k frame' := by
        intro frame' hframe'
        exact hclose frame' (List.mem_cons_of_mem _ hframe')
      by_cases hhead : Opens k frame
      · have hnext := (mem_receive hm).mpr (.inr ⟨hk, hroot, hhead⟩)
        obtain ⟨answer, hanswer, haccepts⟩ := receive_accepts hroot hk hhead
        have hthere := receiveAll_keeps hm' hnext htail
        exact ⟨hthere, answer, List.mem_append_left _ hanswer, haccepts⟩
      · have hnext : k ∉ (receive m frame).1.playerChannels := by
          rw [mem_receive hm]
          tauto
        obtain ⟨opening, hmem, hopening⟩ := hopens
        have hlater : opening ∈ frames := by
          rcases List.mem_cons.mp hmem with rfl | hlater
          · exact absurd hopening hhead
          · exact hlater
        obtain ⟨hthere, answer, hanswer, haccepts⟩ :=
          ih hm' hnext htail ⟨opening, hlater, hopening⟩
        exact ⟨hthere, answer, List.mem_append_right _ hanswer, haccepts⟩

theorem receiveAll_mem (hm : m.Attached)
    (hk : k ∈ (receiveAll m frames).1.playerChannels) :
    k ∈ m.playerChannels ∨ ∃ frame ∈ frames, Opens k frame := by
  induction frames generalizing m with
  | nil => exact .inl hk
  | cons frame frames ih =>
      rcases ih (hm.processMessage frame.1 frame.2) hk with hnext | ⟨opening, hmem, hopens⟩
      · rcases (mem_receive hm).mp hnext with ⟨hold, -⟩ | ⟨-, -, hopens⟩
        · exact .inl hold
        · exact .inr ⟨frame, List.mem_cons_self, hopens⟩
      · exact .inr ⟨opening, List.mem_cons_of_mem _ hmem, hopens⟩

end Receive

namespace Peer

variable {p : Peer β} {frames : List (Frame β)}

def Quiet (p : Peer β) : Prop := p.toClient = [] ∧ p.toServer = []

theorem Quiet.settled_eq (h : p.Quiet) : p.settled = p.client := by
  rw [settled, h.1]
  rfl

theorem Quiet.answers_eq (h : p.Quiet) : p.answers = [] := by
  rw [answers, h.1, h.2]
  rfl

theorem settled_send : (p.send frames).settled = (receiveAll p.settled frames).1 := by
  simp only [settled, send, receiveAll_append]

theorem answers_send :
    (p.send frames).answers = p.answers ++ (receiveAll p.settled frames).2 := by
  simp only [answers, settled, send, receiveAll_append, List.append_assoc]

theorem settled_reply (signals : List (ClientSignal β)) :
    (p.reply signals).settled = p.settled := rfl

theorem mem_answers_reply (signals : List (ClientSignal β)) {frame : Frame β}
    (h : frame ∈ p.answers) : frame ∈ (p.reply signals).answers := by
  simp only [answers, reply, List.mem_append] at h ⊢
  tauto

def Accepting (p : Peer β) (k : Int) : Prop := ∃ frame ∈ p.answers, Accepts k frame

theorem Quiet.not_accepting (h : p.Quiet) (k : Int) : ¬ p.Accepting k := by
  rintro ⟨frame, hframe, -⟩
  rw [h.answers_eq] at hframe
  cases hframe

end Peer

end GBerry.Protocol
