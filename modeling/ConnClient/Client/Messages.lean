/-
  What becomes of the application's messages.

  `SendMsg` accepts a message when the state is `CS_LOGIC_CONNECTED`, and queues a task; the task
  asks for the state again.  So a message is handed to `pvp_ikcp_send_ex` when its task runs in
  `CS_LOGIC_CONNECTED` with a KCP session, and dropped otherwise, also when the disconnect that came
  in between can still be recovered from (`dropped_while_live`).  Apart from that nothing is lost,
  repeated or reordered (`messages_handed`).
-/
import ConnClient.Client.Paths

namespace ConnClient

open ConnClient.Lib ConnClient.Ikcp

/-! ## The messages in the events, oldest first -/

/-- The messages `SendMsg` accepted. -/
def acceptedMsgs : List Ev → List (List Byte)
  | [] => []
  | .accepted msg :: t => acceptedMsgs t ++ [msg]
  | _ :: t => acceptedMsgs t

/-- The messages whose task ran. -/
def ranMsgs : List Ev → List (List Byte)
  | [] => []
  | .ran (.send msg) _ _ _ :: t => ranMsgs t ++ [msg]
  | _ :: t => ranMsgs t

/-- Of these, the ones that were not empty and whose task ran in `CS_LOGIC_CONNECTED` with a KCP
    session. -/
def reachedMsgs : List Ev → List (List Byte)
  | [] => []
  | .ran (.send msg) connected live _ :: t =>
    if msg ≠ [] ∧ connected ∧ live then reachedMsgs t ++ [msg] else reachedMsgs t
  | _ :: t => reachedMsgs t

/-- The messages handed to `pvp_ikcp_send_ex`. -/
def handedMsgs : List Ev → List (List Byte)
  | [] => []
  | .handed msg :: t => handedMsgs t ++ [msg]
  | _ :: t => handedMsgs t

/-- The messages of the tasks still queued. -/
def queuedMsgs (q : List Task) : List (List Byte) :=
  q.filterMap fun
    | .send msg => some msg
    | _ => none

theorem queuedMsgs_append (q q' : List Task) :
    queuedMsgs (q ++ q') = queuedMsgs q ++ queuedMsgs q' :=
  List.filterMap_append

/-! ## All runs -/

/-- Every accepted message is queued or ran, in order, and exactly those that reached KCP were handed
    to it. -/
structure MessagesOk (k : Ctl) : Prop where
  queued : acceptedMsgs k.trace = ranMsgs k.trace ++ queuedMsgs k.inQueue
  handed : handedMsgs k.trace = reachedMsgs k.trace

/-- An event that is about no message. -/
theorem MessagesOk.log {k k' : Ctl} {e : Ev} (h : MessagesOk k) (htrace : k'.trace = e :: k.trace)
    (hq : k'.inQueue = k.inQueue)
    (he : acceptedMsgs (e :: k.trace) = acceptedMsgs k.trace
      ∧ ranMsgs (e :: k.trace) = ranMsgs k.trace
      ∧ handedMsgs (e :: k.trace) = handedMsgs k.trace
      ∧ reachedMsgs (e :: k.trace) = reachedMsgs k.trace) : MessagesOk k' := by
  obtain ⟨h1, h2, h3, h4⟩ := he
  refine ⟨?_, ?_⟩
  · rw [htrace, hq, h1, h2]
    exact h.queued
  · rw [htrace, h3, h4]
    exact h.handed

/-- A task that is taken: its message moves from the queue to the messages that ran, and if it
    reaches KCP it is handed to it in the same move. -/
theorem MessagesOk.take {k : Ctl} {t : Task} {rest : List Task} {live : Bool} (h : MessagesOk k)
    (hq : k.inQueue = t :: rest) :
    MessagesOk (k.take t rest live (handedBy (k.connState == .logicConnected) live t)) := by
  have hqueued := h.queued
  rw [hq] at hqueued
  cases t with
  | connect | close => exact ⟨hqueued, h.handed⟩
  | send msg =>
    have hsplit : acceptedMsgs k.trace = (ranMsgs k.trace ++ [msg]) ++ queuedMsgs rest := by
      rw [hqueued, List.append_assoc]
      rfl
    by_cases hgo : msg ≠ [] ∧ (k.connState == .logicConnected) = true ∧ live = true
    · rw [handedBy_send hgo]
      refine ⟨hsplit, ?_⟩
      show handedMsgs k.trace ++ [msg] = if _ then reachedMsgs k.trace ++ [msg] else _
      rw [if_pos hgo, h.handed]
    · rw [handedBy_drop hgo]
      refine ⟨hsplit, ?_⟩
      show handedMsgs k.trace = if _ then _ else reachedMsgs k.trace
      rw [if_neg hgo, h.handed]

/-- **Every move keeps it.** -/
theorem Move.messagesOk {k k' : Ctl} (hm : Move k k') (h : MessagesOk k) : MessagesOk k' := by
  cases hm with
  | close hc =>
    cases hc with
    | enter | leave => exact ⟨h.queued, h.handed⟩
    | output | terminal => exact h.log rfl rfl ⟨rfl, rfl, rfl, rfl⟩
    | shut =>
      unfold Ctl.shut Ctl.report
      split <;> exact ⟨h.queued, h.handed⟩
  | noRoom | connecting | dialFail | connected | attempt =>
    exact h.log rfl rfl ⟨rfl, rfl, rfl, rfl⟩
  | login _ hn => rcases hn with ⟨rfl, -⟩ | rfl | rfl <;> exact ⟨h.queued, h.handed⟩
  | loginLost => exact ⟨h.queued, h.handed⟩
  | lateNote => exact h.log rfl rfl ⟨rfl, rfl, rfl, rfl⟩
  | clamp => exact ⟨h.queued, h.handed⟩
  | take live hq => exact h.take hq

theorem AppMove.messagesOk {k k' : Ctl} (hm : AppMove k k') (h : MessagesOk k) : MessagesOk k' := by
  cases hm with
  | accept msg =>
    refine ⟨?_, h.handed⟩
    show acceptedMsgs k.trace ++ [msg] = ranMsgs k.trace ++ queuedMsgs (k.inQueue ++ [.send msg])
    rw [queuedMsgs_append, h.queued, List.append_assoc]
    rfl
  | @ask t thread _ ht =>
    refine ⟨?_, h.handed⟩
    show acceptedMsgs k.trace = ranMsgs k.trace ++ queuedMsgs (k.inQueue ++ [t])
    have hnone : queuedMsgs [t] = [] := by
      cases t with
      | send msg => exact absurd rfl (ht msg)
      | connect | close => rfl
    rw [queuedMsgs_append, hnone, List.append_nil]
    exact h.queued

/-- **Every accepted message is handed to KCP exactly once and in order**, unless its task ran while
    the state was not `CS_LOGIC_CONNECTED` or without a KCP session (or the message is empty); and
    every message accepted is one whose task ran or is still queued, in the order of `SendMsg`. -/
theorem messages_handed {s : Sys} (h : Reachable s) :
    acceptedMsgs s.client.trace = ranMsgs s.client.trace ++ queuedMsgs s.client.inQueue
    ∧ handedMsgs s.client.trace = reachedMsgs s.client.trace := by
  have hok : MessagesOk s.client.ctl := by
    refine h.inv (I := fun s => MessagesOk s.client.ctl) ?_ ?_
    · rintro s ⟨cb, now, rfl⟩
      exact ⟨rfl, rfl⟩
    · intro s s' a _ hs _ hr
      exact sysStep_inv (fun _ _ hm => hm.messagesOk) (fun _ _ hm => hm.messagesOk)
        (fun _ _ h => ⟨h.queued, h.handed⟩) (fun _ h => ⟨h.queued, h.handed⟩) hr hs
  exact ⟨hok.queued, hok.handed⟩

/-- A session and a login in one read, a message of the application, and the rest of the round. -/
def sampleMessage : List Act :=
  .addRelinkInterval 1000 :: sampleRead (sampleInfo 500 ++ sampleLabel)
    ++ .sendMsg [7] :: List.replicate 5 (.net (sampleWorld 2000))

/-- The message, handed on in the next round. -/
theorem messages_handed_one :
    ∃ s, Reachable s ∧ acceptedMsgs s.client.trace = [[7]] ∧ handedMsgs s.client.trace = [[7]]
      ∧ acceptedMsgs s.client.trace = ranMsgs s.client.trace ++ queuedMsgs s.client.inQueue
      ∧ handedMsgs s.client.trace = reachedMsgs s.client.trace := by
  have hrun : (sampleExec (sampleMessage ++ List.replicate 2 (.net (sampleWorld 2000)))).map
      (fun s => (acceptedMsgs s.client.trace, handedMsgs s.client.trace))
      = some ([[7]], [[7]]) := by decide +kernel
  obtain ⟨s, hs, hmsgs⟩ := Option.map_eq_some_iff.mp hrun
  rw [Prod.mk.injEq] at hmsgs
  have h : Reachable s := .of_exec (fun _ _ _ => trivial) _ (.start ⟨_, _, rfl⟩) hs
  exact ⟨s, h, hmsgs.1, hmsgs.2, messages_handed h⟩

/-- The connection is lost before the task runs.  The relinks are not used up, so the session is
    kept, but the message is dropped. -/
theorem dropped_while_live :
    ¬ ∀ s, Reachable s → .terminal ∉ s.client.trace →
      handedMsgs s.client.trace = (ranMsgs s.client.trace).filter (· ≠ []) := by
  intro hclaim
  have hrun : (sampleExec (sampleMessage ++ List.replicate 2 (.net (sampleNews 2000 (.readable [])))
      ++ List.replicate 2 (.net (sampleWorld 2000)))).map
      (fun s => (s.client.trace.contains .terminal, ranMsgs s.client.trace,
        handedMsgs s.client.trace)) = some (false, [[7]], []) := by decide +kernel
  obtain ⟨s, hs, hfields⟩ := Option.map_eq_some_iff.mp hrun
  simp only [Prod.mk.injEq] at hfields
  obtain ⟨hterm, hran, hhanded⟩ := hfields
  have h : Reachable s := .of_exec (fun _ _ _ => trivial) _ (.start ⟨_, _, rfl⟩) hs
  have hmem : .terminal ∉ s.client.trace := fun hmem => by simp [hmem] at hterm
  have hall := hclaim s h hmem
  rw [hran, hhanded] at hall
  exact absurd hall (by decide)

end ConnClient
