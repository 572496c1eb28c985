import MediaplayerServer.ServerInvariant

set_option autoImplicit false

namespace MediaplayerServer.Server

open Transition

theorem created_le (server next : Server) (action : Action)
    (stepped : step server action = some next) : server.gst.created ≤ next.gst.created := by
  rcases step_created server next action stepped with ⟨same, -⟩ | ⟨_, -, more⟩ <;> omega

theorem posted_le (server next : Server) (action : Action)
    (stepped : step server action = some next) : server.gst.posted ≤ next.gst.posted := by
  rcases step_player server next action stepped with
    ⟨-, result⟩ | ⟨request, -, result⟩ | ⟨made, ready, -, result⟩ | ⟨-, result⟩ |
      ⟨_, _, _, -, -, -, result⟩ | ⟨_, _, -, -, -, result⟩
  · exact Nat.le_of_eq (by rw [gst, gst, result])
  · exact Nat.le_of_eq (by rw [gst, gst, result, serve_posted])
  · exact Nat.le_of_eq (by rw [gst, gst, result, setup_posted])
  · exact Nat.le_of_eq (by rw [gst, gst, result, teardown_gst])
  · rw [gst, gst, result]
    exact Nat.le_refl _
  · rw [gst, gst, result]
    exact Nat.le_succ _

/-- Every message is on the bus of the pipeline that posted it, and the messages in
hand and handled come from pipelines that were created. -/
structure Traced (server : Server) : Prop where
  queue : ∀ element, ∀ message ∈ (server.playbin element).queue, message.src = element
  hand : ∀ message ∈ server.inHand, message.src < server.gst.created
  handled : ∀ message ∈ server.handled, message.src < server.gst.created

theorem initial_traced : Traced initial := by
  constructor <;> nofun

theorem step_queue_src (server next : Server) (action : Action) (element : Nat)
    (valid : ∀ message ∈ (server.playbin element).queue, message.src = element)
    (stepped : step server action = some next) :
    ∀ message ∈ (next.playbin element).queue, message.src = element := by
  intro message waiting
  rcases step_playbin server next action element stepped with
    result | ⟨request, -, -, result⟩ | ⟨ready, -, -, result⟩ | ⟨first, rest, -, queue, result⟩ |
      ⟨type, -, -, result⟩
  · rw [result] at waiting
    exact valid message waiting
  · rw [result] at waiting
    exact valid message (Playbin.serve_queue _ request message waiting)
  · rw [result, Playbin.installed_queue] at waiting
    cases waiting
  · rw [result] at waiting
    apply valid message
    rw [queue]
    exact List.mem_cons_of_mem first waiting
  · rw [result, List.mem_append, List.mem_singleton] at waiting
    rcases waiting with before | rfl
    · exact valid message before
    · rfl

theorem step_traced (server : Server) (action : Action) (next : Server) (valid : Traced server)
    (stepped : step server action = some next) : Traced next := by
  have grows := created_le server next action stepped
  constructor
  · intro element
    exact step_queue_src server next action element (valid.queue element) stepped
  · intro message held
    rcases inHand_cases server next action stepped message held with
      before | ⟨element, rest, -, created, queue, -⟩
    · exact Nat.lt_of_lt_of_le (valid.hand message before) grows
    · have posted := valid.queue element message (by rw [queue]; exact List.mem_cons_self)
      rw [posted]
      exact Nat.lt_of_lt_of_le created grows
  · intro message done
    rcases (handled_iff server next action stepped message).mp done with before | ⟨-, held⟩
    · exact Nat.lt_of_lt_of_le (valid.handled message before) grows
    · exact Nat.lt_of_lt_of_le (valid.hand message held) grows

end MediaplayerServer.Server
