import PyChain.Network.Turns
import PyChain.Network.WireCodec

/-!
# Nodes and the connections between them

Any number of nodes, each with its own event loop, joined by connections.  What a node
has queued on a connection may arrive at the other end late, again, out of order or not
at all, but nothing else arrives there.
-/

namespace PyChain

open Foundation

namespace Network

/-!
## Bodies name their packets
-/

theorem optionalText_injective : Function.Injective optionalText := by
  intro a b h
  cases a with
  | none =>
      cases b with
      | none => rfl
      | some _ => cases h
  | some _ =>
      cases b with
      | none => cases h
      | some _ =>
          cases h
          rfl

theorem endpointDict_injective : Function.Injective endpointDict := by
  intro a b h
  simp only [endpointDict, Json.obj.injEq, List.cons.injEq, Prod.mk.injEq, Json.str.injEq,
    Json.int.injEq, Nat.cast_inj, true_and, and_true] at h
  rcases a with ⟨host, port⟩
  rcases b with ⟨host', port'⟩
  rw [Endpoint.mk.injEq]
  exact h

theorem typeText_injective : Function.Injective MessageType.text := by
  intro a b h
  have htype := typeOfText_text a
  rw [h, typeOfText_text b] at htype
  exact (Option.some.inj htype).symm

theorem codeText_injective : Function.Injective ErrorCode.text := by
  intro a b h
  have hcode := ofText_text a
  rw [h, ofText_text b] at hcode
  exact (Option.some.inj hcode).symm

theorem strs_injective : Function.Injective (List.map Json.str) :=
  List.map_injective_iff.mpr (fun _ _ h => Json.str.inj h)

theorem Payload.fields_injective {a b : Payload} (htype : a.type = b.type)
    (h : a.fields = b.fields) : a = b := by
  cases a <;> cases b <;> first
    | (cases htype; done)
    | rfl
    | (simp only [Payload.fields, List.cons.injEq, Prod.mk.injEq, Json.str.injEq, Json.int.injEq,
        Json.bool.injEq, Json.arr.injEq, Nat.cast_inj, true_and, and_true,
        strs_injective.eq_iff, optionalText_injective.eq_iff, codeText_injective.eq_iff,
        (List.map_injective_iff.mpr endpointDict_injective).eq_iff] at h
       grind [cases VersionPayload, cases StatusPayload, cases GetBlocksPayload,
         cases BlocksPayload, cases GetMempoolPayload, cases MempoolPayload])

theorem toMessage_injective : Function.Injective Packet.toMessage := by
  intro a b h
  rw [Packet.toMessage, Packet.toMessage, Message.mk.injEq, Json.str.injEq, Json.obj.injEq] at h
  rcases h with ⟨htype, hfields, hid, _⟩
  have hpayload := Payload.fields_injective (typeText_injective htype) hfields
  have hid := optionalText_injective hid
  cases a
  cases b
  rw [Packet.mk.injEq]
  exact ⟨hpayload, hid⟩

theorem Packet.body_injective : Function.Injective Packet.body := by
  intro a b h
  have henvelope : envelope a.toMessage = envelope b.toMessage := by
    have hload := loadEnvelope_body a
    rw [h, loadEnvelope_body] at hload
    exact (Except.ok.inj hload).symm
  have hmessage := readEnvelope_envelope a.toMessage
  rw [henvelope, readEnvelope_envelope b.toMessage] at hmessage
  exact toMessage_injective (Except.ok.inj hmessage).symm

/-!
## Nodes and letters
-/

/-- One end of a connection: a node and the name it gives to the connection. -/
abbrev End (party : Type) := party × Str

/-- A message that was queued at an end. -/
structure Letter (party : Type) where
  sender : End party
  packet : Packet

/-- The nodes, and all that was ever queued. -/
structure Swarm (party disk : Type) where
  node : party -> Node disk
  sent : List (Letter party)

namespace Swarm

variable {party disk : Type}

/-- What waits in the queues of a node. -/
def outgoing (p : party) (node : Node disk) : List (Letter party) :=
  node.sessions.items.flatMap (fun item =>
    item.2.peer.queue.map (fun packet => { sender := (p, item.1), packet := packet }))

theorem mem_outgoing {p : party} {node : Node disk} {letter : Letter party}
    (h : letter ∈ outgoing p node) :
    exists id session, node.sessions.get? id = some session ∧ letter.sender = (p, id) ∧
      letter.packet ∈ session.peer.queue := by
  rcases List.mem_flatMap.mp h with ⟨⟨id, session⟩, hitem, hletter⟩
  rcases List.mem_map.mp hletter with ⟨packet, hpacket, heq⟩
  rw [← heq]
  exact ⟨id, session, (Dict.get?_eq_some_iff _ _ _).mpr hitem, rfl, hpacket⟩

section Network

variable [DecidableEq party] (store : party -> Option (ChainStore disk))
  (link : End party -> End party)

/-- A reader is given the bodies of what was queued at the other end. -/
def arrives (swarm : Swarm party disk) (p : party) : NodeEvent -> Bool
  | .readBody id body =>
      swarm.sent.any (fun letter =>
        decide (letter.sender = link (p, id) ∧ letter.packet.body = body))
  | _ => true

theorem arrives_letter {swarm : Swarm party disk} {p : party} {id : Str} {body : Bytes}
    {maxFrameBytes : Nat} {packet : Packet} (h : swarm.arrives link p (.readBody id body) = true)
    (hreceived : decodeReceived body maxFrameBytes = .ok packet) :
    { sender := link (p, id), packet := packet } ∈ swarm.sent := by
  rcases List.any_eq_true.mp h with ⟨⟨sender, sent⟩, hletter, hdecide⟩
  rcases of_decide_eq_true hdecide with ⟨hsender, hbody⟩
  have hpacket : sent = packet := by
    rw [← hbody, decodeReceived_body] at hreceived
    exact Packet.body_injective (decodeMessage_eq_ok_iff.mp hreceived).right.left
  rw [← hsender, ← hpacket]
  exact hletter

variable [Crypto]

/-- One event at one node; a body that nobody has sent does not arrive. -/
def machine : Machine (Swarm party disk) (party × Env × NodeEvent)
    (Except PyError Node.Answer) where
  step call swarm :=
    if swarm.arrives link call.1 call.2.2 = true then
      let outcome := (Node.machine (store call.1)).step call.2 (swarm.node call.1)
      (outcome.1,
        { node := Function.update swarm.node call.1 outcome.2
          sent := swarm.sent ++ outgoing call.1 outcome.2 })
    else (.ok none, swarm)

theorem step_cases {call : party × Env × NodeEvent} {swarm : Swarm party disk}
    {P : Swarm party disk -> Prop} (hlost : P swarm)
    (hmoved : forall next, swarm.arrives link call.1 call.2.2 = true ->
      Node.Happens (store call.1) call.2.2 (swarm.node call.1) next ->
      P { node := Function.update swarm.node call.1 next
          sent := swarm.sent ++ outgoing call.1 next }) :
    P ((machine store link).step call swarm).2 := by
  unfold machine
  simp only
  split
  · rename_i harrives
    exact hmoved _ harrives (Node.machine_happens call.2 (swarm.node call.1))
  · exact hlost

variable {store link}

theorem step_blocks (call : party × Env × NodeEvent) (swarm : Swarm party disk) (p : party) :
    (swarm.node p).chain.blocks <+:
      (((machine store link).step call swarm).2.node p).chain.blocks := by
  apply step_cases store link
    (P := fun next => (swarm.node p).chain.blocks <+: (next.node p).chain.blocks)
  · exact List.prefix_rfl
  · intro next _ hhappens
    by_cases hp : p = call.1
    · rw [hp]
      simp only [Function.update_self]
      exact hhappens.blocks
    · simp only [Function.update_of_ne hp]
      exact List.prefix_rfl

variable (store link) in
theorem run_blocks (calls : List (party × Env × NodeEvent)) (swarm : Swarm party disk)
    (p : party) :
    (swarm.node p).chain.blocks <+: (((machine store link).run calls swarm).node p).chain.blocks :=
  @Machine.run_relation _ _ _ (machine store link)
    (fun before after => (before.node p).chain.blocks <+: (after.node p).chain.blocks)
    (fun _ => List.prefix_rfl) (fun _ _ _ h h' => h.trans h')
    (fun call before => step_blocks call before p) calls swarm

end Network

end Swarm

end Network

end PyChain
