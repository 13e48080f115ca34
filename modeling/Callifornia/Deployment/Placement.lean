import Callifornia.Deployment.Pool

/-! # Where a room is kept

A room lives at one signaling node and on one SFU. However the tasks of the deployment interleave,
fail and stop, and whoever asks, everything that is done for the room is done there: its peers are
registered at that node, and every call about it goes to that SFU.
-/

namespace Callifornia.Deployment

open Concurrency Concurrency.Program Concurrency.System FiniteMap Store Signaling

variable {setup : Setup} {world after : World} {op : Op} {roomId : RoomId}
  {known : Knowledge} {others tasks : Multiset Knowledge}

/-! ## What tells of a placement -/

/-- Whatever there is of the room agrees with one of these placements: its binding, what the tasks
have learned, its peers on the SFUs and in the registries. -/
structure Agrees (roomId : RoomId) (placements : Set Placement) (world : World)
    (tasks : Multiset Knowledge) : Prop where
  binding : ∀ hash, world.redis.bindings.lookup roomId = some hash → ∃ placement ∈ placements,
    ∀ route, RoomRoute.ofFields hash.fields = .ok route → placementOf route = placement
  learned : ∀ known ∈ tasks, ∀ placement, known.Learned roomId placement → placement ∈ placements
  sfus : ∀ sfuAddr nickname, (sfuAddr, roomId, nickname) ∈ world.sfuPeers →
    ∃ placement ∈ placements, placement.sfuAddr = some sfuAddr
  nodes : ∀ node nickname entry, (world.nodes node).peers.lookup (roomId, nickname) = some entry →
    (⟨node, entry.sfuAddr⟩ : Placement) ∈ placements

/-- The room has this placement, and its id is used up. -/
structure Rests (roomId : RoomId) (placement : Placement) (world : World)
    (tasks : Multiset Knowledge) : Prop where
  agrees : Agrees roomId {placement} world tasks
  spent : Spent roomId world tasks

/-- There is nothing of the room, or it has one placement. -/
def Settled (roomId : RoomId) (world : World) (tasks : Multiset Knowledge) : Prop :=
  Agrees roomId ∅ world tasks ∨ ∃ placement, Rests roomId placement world tasks

/-! ## Single steps -/

/-- A peer of an SFU is created by a call. -/
theorem exec_sfuPeers {answer : op.Reply} (effect : World.exec op world answer after)
    {sfuAddr : Address} {nickname : Nickname}
    (held : (sfuAddr, roomId, nickname) ∈ after.sfuPeers) :
    (sfuAddr, roomId, nickname) ∈ world.sfuPeers ∨
      ∃ node, op = .createPeer sfuAddr roomId nickname node := by
  cases op with
  | createPeer address room name node =>
      rcases effect with ⟨-, -, -, -, rfl⟩ | ⟨-, rfl⟩
      · rcases Finset.mem_insert.mp held with same | held
        · cases same
          exact .inr ⟨node, rfl⟩
        · exact .inl held
      · exact .inl held
  | deletePeer =>
      obtain ⟨-, rfl⟩ := effect
      exact .inl (Finset.mem_of_mem_erase held)
  | redis =>
      obtain ⟨_, _, -, -, rfl⟩ := effect
      exact .inl held
  | peers | sessions =>
      obtain ⟨_, -, rfl⟩ := effect
      exact .inl held
  | trySend =>
      obtain ⟨-, rfl⟩ := effect
      split at held <;> exact .inl held
  | sendMessage =>
      obtain rfl : after = _ := effect
      split at held <;> exact .inl held
  | setContext | pingSignaling | pingSfu =>
      obtain rfl : after = _ := effect
      exact .inl held
  | outOfFuel => exact answer.elim
  | _ =>
      obtain ⟨-, rfl⟩ := effect
      exact .inl held

/-! ## Steps that do not bind the room -/

namespace Agrees

variable {placements : Set Placement}

/-- Part of what there was of the room is left. -/
theorem of_kept (agrees : Agrees roomId placements world tasks)
    (bindings : after.redis.bindings.lookup roomId = world.redis.bindings.lookup roomId ∨
      after.redis.bindings.lookup roomId = none)
    (sfus : ∀ sfuAddr nickname, (sfuAddr, roomId, nickname) ∈ after.sfuPeers →
      (sfuAddr, roomId, nickname) ∈ world.sfuPeers)
    (nodes : ∀ node nickname entry,
      (after.nodes node).peers.lookup (roomId, nickname) = some entry →
        (world.nodes node).peers.lookup (roomId, nickname) = some entry) :
    Agrees roomId placements after tasks where
  binding hash found := by
    rcases bindings with same | gone
    · exact agrees.binding hash (same.symm.trans found)
    · rw [gone] at found
      cases found
  learned := agrees.learned
  sfus sfuAddr nickname held := agrees.sfus sfuAddr nickname (sfus sfuAddr nickname held)
  nodes node nickname entry found :=
    agrees.nodes node nickname entry (nodes node nickname entry found)

/-- A task that ends leaves the agreement. -/
theorem leave (agrees : Agrees roomId placements world (known ::ₘ others)) :
    Agrees roomId placements world others :=
  { agrees with
    learned := fun known member => agrees.learned known (Multiset.mem_cons_of_mem member) }

/-- What a task learns agrees as well. -/
theorem learn {known' : Knowledge} (agrees : Agrees roomId placements world (known ::ₘ others))
    (learned : ∀ placement, known'.Learned roomId placement → placement ∈ placements) :
    Agrees roomId placements world (known' ::ₘ others) :=
  { agrees with
    learned := fun known member => by
      rcases Multiset.mem_cons.mp member with rfl | member
      · exact learned
      · exact agrees.learned known (Multiset.mem_cons_of_mem member) }

/-- What takes effect agrees with what was known before. -/
theorem effect {answer : op.Reply} (agrees : Agrees roomId placements world (known ::ₘ others))
    (allows : setup.Allows known op) (effect : World.exec op world answer after)
    (other : ¬ Binds roomId op) : Agrees roomId placements after (known ::ₘ others) where
  binding hash found := by
    rcases binding_kept effect other with same | gone
    · exact agrees.binding hash (same.symm.trans found)
    · rw [gone] at found
      cases found
  learned := agrees.learned
  sfus sfuAddr nickname held := by
    rcases exec_sfuPeers effect held with held | ⟨node, rfl⟩
    · exact agrees.sfus sfuAddr nickname held
    · exact ⟨_, agrees.learned known (Multiset.mem_cons_self _ _) _ allows, rfl⟩
  nodes node nickname entry found := by
    rcases exec_entries effect found with found | rfl
    · exact agrees.nodes node nickname entry found
    · exact agrees.learned known (Multiset.mem_cons_self _ _) _ allows

/-- **Step lemma.** Whatever is done without binding the room agrees with what there is of it. -/
theorem step {reply : op.Reply} (agrees : Agrees roomId placements world (known ::ₘ others))
    (allows : setup.Allows known op) (steps : Steps op world reply after)
    (other : ¬ Binds roomId op) :
    Agrees roomId placements after (advance known op reply ::ₘ others) := by
  have taken : Agrees roomId placements after (known ::ₘ others) := by
    rcases steps.effect with rfl | ⟨answer, effect⟩
    · exact agrees
    · exact agrees.effect allows effect other
  refine taken.learn fun placement learned => ?_
  rcases learned_advance.mp learned with tells | learned
  · rcases steps.truthful with fails | effect
    · rw [told_of_fails fails] at tells
      cases tells
    · rcases told_cases effect tells with binds | ⟨hash, route, bound, read, rfl⟩ |
        ⟨node, nickname, entry, found, rfl⟩
      · exact absurd binds other
      · obtain ⟨placement, member, only⟩ := agrees.binding hash bound
        exact only route read ▸ member
      · exact agrees.nodes node nickname entry found
  · exact agrees.learned known (Multiset.mem_cons_self _ _) placement learned

/-- A task that starts has learned nothing. -/
theorem enter (agrees : Agrees roomId placements world tasks) (task : Task) :
    Agrees roomId placements world (.initial task ::ₘ tasks) :=
  { agrees with
    learned := fun known member => by
      rcases Multiset.mem_cons.mp member with rfl | member
      · exact fun placement learned =>
          absurd (.inl ⟨placement, learned⟩) (not_mentions_initial task)
      · exact agrees.learned known member }

/-- A new task leaves it as well. -/
theorem opened (agrees : Agrees roomId placements world tasks) (task : Task) :
    Agrees roomId placements (opened world task) tasks := by
  cases task <;> exact agrees.of_kept (.inl rfl) (fun _ _ => id) (fun _ _ _ => id)

/-- A node that restarts forgets its registry. -/
theorem changed (agrees : Agrees roomId placements world tasks) (changed : Changes world after) :
    Agrees roomId placements after tasks := by
  cases changed with
  | elapse => exact agrees.of_kept (.inl rfl) (fun _ _ => id) (fun _ _ _ => id)
  | lose part => exact agrees.of_kept (.inl rfl) (fun _ _ held => part held) (fun _ _ _ => id)
  | restart node =>
      refine agrees.of_kept (.inl rfl) (fun _ _ => id) fun other nickname entry found => ?_
      rw [World.nodes_setNode] at found
      split at found
      · cases found
      · exact found

end Agrees

/-! ## Binding the room -/

/-- The placement of a room that is bound to an instance. -/
def madeAt (config : Signaling.Config) (best : SfuInstance) : Placement where
  owner := config.publicNodeId
  sfuAddr := (some best.grpcAddr).filter (· ≠ "")

/-- Who reads a new binding is told the placement that was made. -/
theorem placementOf_newBinding {config : Signaling.Config} {best : SfuInstance} {route : RoomRoute}
    (read : RoomRoute.ofFields (Redis.newBinding config.signalingPublicHost
      (toString config.signalingPublicPort.toNat) config.publicNodeId best).fields = .ok route) :
    placementOf route = madeAt config best := by
  have field (name : String) : (Redis.newBinding config.signalingPublicHost
      (toString config.signalingPublicPort.toNat) config.publicNodeId
        best).fields.lookup name = _ :=
    Redis.get_newBinding config.signalingPublicHost (toString config.signalingPublicPort.toNat)
      config.publicNodeId name best
  rw [RoomRoute.ofFields, if_neg (Hash.nonempty _), field, field, field, field] at read
  simp only [String.reduceEq, ↓reduceIte, Option.bind_some, parseU16_toString] at read
  by_cases named : config.signalingPublicHost = ""
  · rw [named] at read
    cases read
  · rw [Option.filter_some, if_pos (decide_eq_true named)] at read
    obtain rfl := Except.ok.inj read
    rfl

/-- Who binds a room is told the placement that was made. -/
theorem told_assigned {config : Signaling.Config} {best : SfuInstance} {clock staleAfter : ℤ}
    {placement : Placement}
    (tells : (roomId, placement) ∈ told (.redis (.assignRoomToSfu roomId
      config.signalingPublicHost (toString config.signalingPublicPort.toNat) config.publicNodeId
        clock staleAfter)) (.ok [best.instanceId, best.grpcAddr])) :
    placement = madeAt config best := by
  obtain ⟨assignment, made, same⟩ := Option.map_eq_some_iff.mp (Option.mem_toList.mp tells)
  obtain ⟨-, rfl⟩ := Prod.mk.inj same
  rw [SfuAssignment.ofReply] at made
  split at made
  · cases made
  · unfold madeAt
    cases named : (some best.grpcAddr).filter (· ≠ "") with
    | none =>
        simp only [List.head?_cons, named] at made
        cases made
    | some sfuAddr =>
        simp only [List.head?_cons, named] at made
        obtain rfl := Option.some.inj made
        rfl

/-- Nothing is told of a room that is not bound. -/
theorem told_unassigned {ownerHost ownerPort ownerId : String} {clock staleAfter : ℤ}
    {answer : Except RedisFailure (List String)}
    (refused : answer = .ok [] ∨ answer = .ok ["__ROOM_EXISTS__", ""]) :
    told (.redis (.assignRoomToSfu roomId ownerHost ownerPort ownerId clock staleAfter)) answer =
      [] := by
  rcases refused with rfl | rfl <;> rfl

/-- A room of which there was nothing is bound. -/
theorem Agrees.bind {config : Signaling.Config} {best : SfuInstance}
    (unseen : Agrees roomId ∅ world tasks) : Agrees roomId {madeAt config best}
      { world with
        redis := world.redis.assign roomId config.signalingPublicHost
          (toString config.signalingPublicPort.toNat) config.publicNodeId best } tasks where
  binding hash found := by
    change (world.redis.bindings.insert roomId _).lookup roomId = some hash at found
    rw [Finmap.lookup_insert] at found
    obtain rfl := Option.some.inj found
    exact ⟨_, Set.mem_singleton _, fun route => placementOf_newBinding⟩
  learned known member placement learned := (unseen.learned known member placement learned).elim
  sfus sfuAddr nickname held := by
    obtain ⟨_, absent, -⟩ := unseen.sfus sfuAddr nickname held
    exact absent.elim
  nodes node nickname entry found := (unseen.nodes node nickname entry found).elim

/-! ## The invariant -/

/-- A step that binds the room settles it. -/
theorem settled_of_binds {reply : op.Reply} (unseen : Agrees roomId ∅ world (known ::ₘ others))
    (allows : setup.Allows known op) (steps : Steps op world reply after) (binds : Binds roomId op)
    (kept : (contract setup).inv after (advance known op reply ::ₘ others)) :
    Settled roomId after (advance known op reply ::ₘ others) := by
  have unknown (placement : Placement) : ¬ known.Learned roomId placement :=
    fun learned => unseen.learned known (Multiset.mem_cons_self _ _) placement learned
  have silent (tells : told op reply = []) (placement : Placement) :
      ¬ (advance known op reply).Learned roomId placement := by
    intro learned
    rcases learned_advance.mp learned with told | learned
    · rw [tells] at told
      cases told
    · exact unknown placement learned
  cases op with
  | redis command =>
      cases command with
      | assignRoomToSfu bound ownerHost ownerPort ownerId =>
          obtain rfl : bound = roomId := binds
          obtain ⟨-, config, -, rfl, rfl, rfl⟩ := allows
          have spent {best : SfuInstance} (changed : after = { world with
              redis := world.redis.assign bound config.signalingPublicHost
                (toString config.signalingPublicPort.toNat) config.publicNodeId best }) :
              Spent bound after (advance known _ reply ::ₘ others) := by
            have written : after.redis.bindings.lookup bound = some (Redis.newBinding
                config.signalingPublicHost (toString config.signalingPublicPort.toNat)
                  config.publicNodeId best) := by
              subst changed
              exact Finmap.lookup_insert _
            exact kept.spent bound (.bound (Finmap.mem_of_lookup_eq_some written))
          cases steps with
          | succeeds effect =>
              rcases exec_assigned effect with ⟨refused, rfl⟩ | ⟨_, best, -, -, rfl, changed⟩
              · exact .inl (unseen.learn fun placement learned =>
                  silent (told_unassigned refused) placement learned)
              · refine .inr ⟨madeAt config best, ⟨?_, spent changed⟩⟩
                subst changed
                refine unseen.bind.learn fun placement learned => ?_
                rcases learned_advance.mp learned with tells | learned
                · exact told_assigned tells
                · exact (unknown placement learned).elim
          | refused fails =>
              exact .inl (unseen.learn fun placement learned =>
                silent (told_of_fails fails) placement learned)
          | unanswered fails effect =>
              have silent := silent (told_of_fails fails)
              rcases exec_assigned effect with ⟨-, rfl⟩ | ⟨_, best, -, -, -, changed⟩
              · exact .inl (unseen.learn silent)
              · refine .inr ⟨madeAt config best, ⟨?_, spent changed⟩⟩
                subst changed
                exact unseen.bind.learn fun placement learned => (silent placement learned).elim
      | hset key =>
          cases key with
          | binding => exact allows.elim
          | session => exact binds.elim
      | _ => exact binds.elim
  | _ => exact binds.elim

/-- **Step lemma.** A room keeps its placement. -/
theorem keeps_rests {placement : Placement} :
    (contract setup).Keeps unguarded (Rests roomId placement) where
  step world known others op reply after _ rests allows _ step := by
    obtain ⟨steps, -⟩ := step
    exact ⟨rests.agrees.step allows steps (not_binds_of_spent rests.spent allows),
      rests.spent.step steps⟩
  start world others known program after started rests := by
    obtain ⟨task, -, rfl, -, rfl⟩ := started
    exact ⟨(rests.agrees.opened task).enter task,
      rests.spent.enter (opened_kept world task).2.1 (drawn_initial task)⟩
  finish _ _ _ _ rests := ⟨rests.agrees.leave, rests.spent.leave⟩
  discard _ _ _ _ rests := ⟨rests.agrees.leave, rests.spent.leave⟩
  environment _ _ _ changed rests := ⟨rests.agrees.changed changed, rests.spent.changed changed⟩

/-- **Step lemma.** Every room stays settled. -/
theorem keeps_settled : (contract setup).Keeps unguarded (Settled roomId) where
  step world known others op reply after inv settled allows _ step := by
    rcases settled with unseen | ⟨placement, rests⟩
    · have kept := (sound_contract world known others op reply after inv allows step).2
      by_cases binds : Binds roomId op
      · exact settled_of_binds unseen allows step.1 binds kept
      · exact .inl (unseen.step allows step.1 binds)
    · exact .inr ⟨placement,
        keeps_rests.step world known others op reply after inv rests allows trivial step⟩
  start world others known program after started settled := by
    rcases settled with unseen | ⟨placement, rests⟩
    · obtain ⟨task, -, rfl, -, rfl⟩ := started
      exact .inl ((unseen.opened task).enter task)
    · exact .inr ⟨placement, keeps_rests.start world others known program after started rests⟩
  finish world known result others settled :=
    settled.imp Agrees.leave fun ⟨placement, rests⟩ =>
      ⟨placement, keeps_rests.finish world known result others rests⟩
  discard world known others discarded settled :=
    settled.imp Agrees.leave fun ⟨placement, rests⟩ =>
      ⟨placement, keeps_rests.discard world known others discarded rests⟩
  environment world others after changed settled :=
    settled.imp (Agrees.changed · changed) fun ⟨placement, rests⟩ =>
      ⟨placement, keeps_rests.environment world others after changed rests⟩

/-- A fresh deployment has settled nothing. -/
theorem settled_fresh : Settled roomId World.fresh 0 := by
  refine .inl ⟨?_, ?_, ?_, ?_⟩
  · intro hash found
    cases found
  · exact fun known member => absurd member (Multiset.notMem_zero _)
  · exact fun sfuAddr nickname held => absurd held (Finset.notMem_empty _)
  · intro node nickname entry found
    cases found

/-! ## Reachable states -/

/-- The call is about the room and goes to this SFU. -/
def Calls (roomId : RoomId) (sfuAddr : Address) : Op → Prop
  | .createPeer address room _ _ | .deletePeer address room _ _ | .handleSdp address room _ _ _
  | .addIceCandidate address room _ _ _ => address = sfuAddr ∧ room = roomId
  | _ => False

/-- The step makes a peer of the room belong to this node. -/
def Registers (roomId : RoomId) (node : NodeId) : Op → Prop
  | .createPeer _ room _ signalingId => signalingId = node ∧ room = roomId
  | .peers other (.register room _ _) => other = node ∧ room = roomId
  | _ => False

variable {pool pool' : (system setup).Pool}

/-- The room is kept on this SFU: its route says so, a peer of it is there, or a task is about to
call that SFU about it. -/
inductive OnSfu (pool : (system setup).Pool) (roomId : RoomId) (sfuAddr : Address) : Prop
  | routed (hash : Hash) (route : RoomRoute)
      (bound : pool.state.redis.bindings.lookup roomId = some hash)
      (read : RoomRoute.ofFields hash.fields = .ok route)
      (named : route.sfuGrpcAddr = some sfuAddr)
  | held (nickname : Nickname) (held : (sfuAddr, roomId, nickname) ∈ pool.state.sfuPeers)
  | called (known : Knowledge) (op : Op) (next : op.Reply → Call Unit)
      (running : (⟨known, .call op next⟩ : (system setup).Thread) ∈ pool.threads)
      (calls : Calls roomId sfuAddr op)

/-- The room is kept at this node: its route says so, a peer of it is registered there, or a task
is about to make one belong to the node. -/
inductive AtNode (pool : (system setup).Pool) (roomId : RoomId) (node : NodeId) : Prop
  | routed (hash : Hash) (route : RoomRoute)
      (bound : pool.state.redis.bindings.lookup roomId = some hash)
      (read : RoomRoute.ofFields hash.fields = .ok route)
      (named : (placementOf route).owner = node)
  | registered (nickname : Nickname)
      (registered : (roomId, nickname) ∈ (pool.state.nodes node).peers)
  | registers (known : Knowledge) (op : Op) (next : op.Reply → Call Unit)
      (running : (⟨known, .call op next⟩ : (system setup).Thread) ∈ pool.threads)
      (registers : Registers roomId node op)

/-- What a task that is about to call an SFU about the room has learned. -/
theorem learned_of_calls {sfuAddr : Address} (allows : setup.Allows known op)
    (calls : Calls roomId sfuAddr op) : ∃ owner, known.Learned roomId ⟨owner, some sfuAddr⟩ := by
  cases op with
  | createPeer address room nickname node =>
      obtain ⟨rfl, rfl⟩ := calls
      exact ⟨node, allows⟩
  | deletePeer | handleSdp | addIceCandidate =>
      obtain ⟨rfl, rfl⟩ := calls
      exact allows
  | _ => exact calls.elim

/-- A task registers a peer only with a placement it has learned. -/
theorem learned_of_registers {node : NodeId} (allows : setup.Allows known op)
    (registers : Registers roomId node op) : ∃ sfuAddr, known.Learned roomId ⟨node, sfuAddr⟩ := by
  cases op with
  | createPeer address room nickname other =>
      obtain ⟨rfl, rfl⟩ := registers
      exact ⟨some address, allows⟩
  | peers other command =>
      cases command with
      | register room nickname entry =>
          obtain ⟨rfl, rfl⟩ := registers
          exact ⟨entry.sfuAddr, allows⟩
      | _ => exact registers.elim
  | _ => exact registers.elim

/-- A task that is about to execute a command has learned what directs it. -/
theorem allows_of_running {next : op.Reply → Call Unit} (holds : (contract setup).Holds pool)
    (running : (⟨known, .call op next⟩ : (system setup).Thread) ∈ pool.threads) :
    setup.Allows known op ∧ known ∈ phases pool.threads :=
  ⟨(holds.2 _ running).1, Multiset.mem_coe.mpr (List.mem_map_of_mem running)⟩

/-- An SFU that a room is routed to is that of a placement. -/
theorem OnSfu.agrees {placements : Set Placement} {sfuAddr : Address}
    (on : OnSfu pool roomId sfuAddr) (holds : (contract setup).Holds pool)
    (agrees : Agrees roomId placements pool.state (phases pool.threads)) :
    ∃ placement ∈ placements, placement.sfuAddr = some sfuAddr := by
  cases on with
  | routed hash route bound read named =>
      obtain ⟨placement, member, only⟩ := agrees.binding hash bound
      exact ⟨placement, member, only route read ▸ named⟩
  | held nickname held => exact agrees.sfus sfuAddr nickname held
  | called known op next running calls =>
      obtain ⟨allows, member⟩ := allows_of_running holds running
      obtain ⟨owner, learned⟩ := learned_of_calls allows calls
      exact ⟨_, agrees.learned known member _ learned, rfl⟩

/-- A node that a room is routed to is the owner of a placement. -/
theorem AtNode.agrees {placements : Set Placement} {node : NodeId}
    (stands : AtNode pool roomId node) (holds : (contract setup).Holds pool)
    (agrees : Agrees roomId placements pool.state (phases pool.threads)) :
    ∃ placement ∈ placements, placement.owner = node := by
  cases stands with
  | routed hash route bound read named =>
      obtain ⟨placement, member, only⟩ := agrees.binding hash bound
      exact ⟨placement, member, only route read ▸ named⟩
  | registered nickname registered =>
      obtain ⟨entry, found⟩ := Finmap.mem_iff.mp registered
      exact ⟨_, agrees.nodes node nickname entry found, rfl⟩
  | registers known op next running registers =>
      obtain ⟨allows, member⟩ := allows_of_running holds running
      obtain ⟨sfuAddr, learned⟩ := learned_of_registers allows registers
      exact ⟨_, agrees.learned known member _ learned, rfl⟩

/-- Once there is anything of a room, it has one placement from then on. -/
theorem rests_of_seen (run : Reaches unguarded (launched setup) pool)
    (later : Reaches unguarded pool pool')
    (seen : ¬ Agrees roomId ∅ pool.state (phases pool.threads)) :
    ∃ placement, Rests roomId placement pool.state (phases pool.threads) ∧
      Rests roomId placement pool'.state (phases pool'.threads) := by
  have settled : Settled roomId pool.state (phases pool.threads) :=
    (Contract.Holds.of_quiescent tidy_fresh).retains governs_contract keeps_settled
      settled_fresh run
  rcases settled with unseen | ⟨placement, rests⟩
  · exact absurd unseen seen
  · exact ⟨placement, rests,
      (holds_of_reaches run).retains governs_contract keeps_rests rests later⟩

/-- **A room is kept on one SFU**: whenever in a run something places a room on an SFU, be it its
route, a peer there, or a call that is about to be made, it is the same SFU. -/
theorem one_sfu (run : Reaches unguarded (launched setup) pool)
    (later : Reaches unguarded pool pool') {sfuAddr other : Address}
    (here : OnSfu pool roomId sfuAddr) (there : OnSfu pool' roomId other) : sfuAddr = other := by
  have holds := holds_of_reaches run
  have seen : ¬ Agrees roomId ∅ pool.state (phases pool.threads) := by
    intro unseen
    obtain ⟨_, absent, -⟩ := here.agrees holds unseen
    exact absent
  obtain ⟨placement, first, last⟩ := rests_of_seen run later seen
  obtain ⟨_, rfl, named⟩ := here.agrees holds first.agrees
  obtain ⟨_, rfl, named'⟩ := there.agrees (holds.reaches governs_contract later) last.agrees
  exact Option.some.inj (named.symm.trans named')

/-- **A room is kept at one signaling node**: whenever in a run something places a room at a node,
be it its route, a registered peer, or a peer that is about to belong to the node, it is the same
node. -/
theorem one_node (run : Reaches unguarded (launched setup) pool)
    (later : Reaches unguarded pool pool') {node other : NodeId}
    (here : AtNode pool roomId node) (there : AtNode pool' roomId other) : node = other := by
  have holds := holds_of_reaches run
  have seen : ¬ Agrees roomId ∅ pool.state (phases pool.threads) := by
    intro unseen
    obtain ⟨_, absent, -⟩ := here.agrees holds unseen
    exact absent
  obtain ⟨placement, first, last⟩ := rests_of_seen run later seen
  obtain ⟨_, rfl, rfl⟩ := here.agrees holds first.agrees
  obtain ⟨_, rfl, rfl⟩ := there.agrees (holds.reaches governs_contract later) last.agrees
  rfl

/-! ## A run -/

/-- The route of the room that is created. -/
theorem created_route : RoomRoute.ofFields (Redis.newBinding "127.0.0.1" "8080" "127.0.0.1:8080"
    ⟨"sfu-1", "http://127.0.0.1:50051", 1, true, "ready", 0, 0⟩).fields =
      .ok ⟨"127.0.0.1", 8080, "active", some "http://127.0.0.1:50051"⟩ := by
  decide +kernel

/-- The run in which a room is created has its peer on the SFU of the route. -/
theorem one_sfu_created : ∃ (pool : (system twoSfus).Pool) (routed held : Address),
    OnSfu pool "room-1" routed ∧ (held, "room-1", "alice") ∈ pool.state.sfuPeers ∧
      routed = held := by
  obtain ⟨pool, run, -, bound, held, -⟩ := exists_created
  have routed : OnSfu pool "room-1" _ := .routed _ _ bound created_route rfl
  exact ⟨pool, _, _, routed, held, one_sfu run .refl routed (.held "alice" held)⟩

/-- The run in which a room is created has its peer at the node of the route. -/
theorem one_node_created : ∃ (pool : (system twoSfus).Pool) (routed node : NodeId),
    AtNode pool "room-1" routed ∧ ("room-1", "alice") ∈ (pool.state.nodes node).peers ∧
      routed = node := by
  obtain ⟨pool, run, -, bound, -, registered⟩ := exists_created
  have routed : AtNode pool "room-1" _ := .routed _ _ bound created_route rfl
  exact ⟨pool, _, _, routed, registered, one_node run .refl routed (.registered "alice" registered)⟩

end Callifornia.Deployment
