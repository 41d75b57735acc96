import LanguageClient.Proofs.Client.Registering

/-!
# The unit of positions after the handshake

In its answer to the handshake a server names the unit in which it counts positions, and if it names
none, the unit is UTF-16. A client looks the unit up in its registry later on, where it finds what
the server has named. If that is nothing, the client falls back on the unit that it has asked for
itself, so the two agree exactly if the server has named one or the client has asked for UTF-16.
-/

namespace LanguageClient.Handshake

/-- The answer that the registry was opened with. -/
def Stage.opened? : Stage → Option HandshakeResult
  | .granted result | .returned result => some result
  | .waiting _ | .answered _ | .failed _ => none

/-- The client still asks for the same unit, and its registry knows what the server has granted. -/
structure Agrees (asked : PositionEncoding) (state : State) : Prop where
  asks : state.client.encoding = asked
  knows : ∀ result, state.stage.opened? = some result →
    state.client.registry.capabilities = some result.capabilities

section Registry

variable {files : FileTree} {registry after : Registry} {registration : Registration}

theorem capabilities_add (hadd : registry.add files registration = .ok after) :
    after.capabilities = registry.capabilities := by
  obtain ⟨-, grant, -, rfl⟩ := Registry.add_eq_ok hadd
  rfl

theorem capabilities_remove (registry : Registry) (unregistration : Unregistration) :
    (registry.remove unregistration).1.capabilities = registry.capabilities := by
  unfold Registry.remove
  dsimp only
  split <;> rfl

end Registry

section Client

variable {files : FileTree}

/-- No request of the server changes the unit that the client asks for. -/
theorem encoding_answer (client : Client) (method : String) (params : Json) :
    (client.answer files method params).2.encoding = client.encoding := by
  unfold Client.answer Client.registerFeatures Client.unregisterFeatures
  split
  · split
    · rfl
    · dsimp only
      split <;> rfl
  · split
    · split <;> rfl
    · split
      · rfl
      · split
        · rfl
        · split <;> rfl

theorem encoding_receive (client : Client) (message : Message) :
    (client.receive files message).1.encoding = client.encoding := by
  cases message with
  | request request =>
    obtain ⟨outbox, hsent⟩ := exists_takeRequest files client request
    change (client.takeRequest files request).encoding = client.encoding
    rw [hsent]
    exact encoding_answer client _ _
  | response response =>
    change (client.takeResponse response).encoding = client.encoding
    unfold Client.takeResponse
    split
    · split <;> rfl
    · rfl
  | notification notification => rfl

end Client

section Steps

variable {files : FileTree} {asked : PositionEncoding} {state : State}

/-- What leaves the client's unit and what its registry knows alone, and does not open the
registry, keeps them in agreement. -/
theorem Agrees.keep (hagrees : Agrees asked state) {after : State}
    (hasks : after.client.encoding = state.client.encoding)
    (hknows : after.client.registry.capabilities = state.client.registry.capabilities)
    (hstage : ∀ result, after.stage.opened? = some result → state.stage.opened? = some result) :
    Agrees asked after where
  asks := hasks.trans hagrees.asks
  knows result hopened := hknows.trans (hagrees.knows result (hstage result hopened))

theorem Agrees.receive (hagrees : Agrees asked state) (message : Message) :
    Agrees asked (state.receive files message) := by
  have hreceive (job : Option Job) (hregistry :
      (state.client.receive files message).1.registry = state.client.registry) :
      Agrees asked { state with client := (state.client.receive files message).1, job } :=
    hagrees.keep (encoding_receive state.client message)
      (congrArg Registry.capabilities hregistry) fun _ h => h
  unfold State.receive
  cases hjob : state.job with
  | some job => exact hagrees
  | none =>
    cases message with
    | request request =>
      dsimp only
      split
      · exact hagrees.keep rfl rfl fun _ h => h
      · rename_i htasks
        exact hreceive none (registry_takeRequest state.client htasks)
    | response response => exact hreceive none (registry_takeResponse state.client response)
    | notification notification => exact hreceive none rfl

theorem Agrees.work (hagrees : Agrees asked state) : Agrees asked (state.work files) := by
  unfold State.work
  split
  · exact hagrees
  · split
    · rename_i job hjob task rest hrest
      cases task with
      | add registration =>
        rw [State.perform]
        split
        · rename_i registry hadd
          exact hagrees.keep rfl (capabilities_add hadd) fun _ h => h
        · exact hagrees.keep rfl rfl fun _ h => h
      | remove unregistration =>
        exact hagrees.keep rfl (capabilities_remove _ unregistration) fun _ h => h
    · rename_i job hjob rest hrest
      obtain ⟨outbox, hsent⟩ := exists_trySend state.client (.response job.response)
      rw [hsent]
      exact hagrees.keep rfl rfl fun _ h => h

/-- The caller has not opened the registry when it takes the answer. -/
theorem Agrees.resume (hagrees : Agrees asked state) : Agrees asked state.resume := by
  unfold State.resume
  split
  · rename_i id hstage
    cases houtcome : state.client.outcomes.lookup id with
    | none =>
      simp only [Client.takeOutcome?, houtcome, Option.map_none]
      exact hagrees
    | some response =>
      simp only [Client.takeOutcome?, houtcome, Option.map_some]
      split
      · exact hagrees.keep rfl rfl fun _ h => by cases h
      · split <;> exact hagrees.keep rfl rfl fun _ h => by cases h
  · exact hagrees

theorem Agrees.expire (hagrees : Agrees asked state) : Agrees asked state.expire := by
  unfold State.expire
  split
  · split
    · exact hagrees
    · rename_i id hstage hnone
      obtain ⟨outstanding, outbox, hsent⟩ := exists_cancelRequest state.client id
      rw [hsent]
      exact hagrees.keep rfl rfl fun _ h => by cases h
  · exact hagrees

theorem Agrees.grant (hagrees : Agrees asked state) : Agrees asked (state.grant files) := by
  unfold State.grant
  split
  · refine ⟨hagrees.asks, fun result hopened => ?_⟩
    obtain rfl := Option.some.inj hopened
    rfl
  · exact hagrees

theorem Agrees.finish (hagrees : Agrees asked state) : Agrees asked state.finish := by
  unfold State.finish
  split
  · rename_i result hstage
    have hopened : state.stage.opened? = some result := by rw [hstage]; rfl
    dsimp only
    split
    · rename_i client hnotify
      obtain rfl := send_eq_ok hnotify
      refine hagrees.keep rfl rfl fun found hfound => ?_
      obtain rfl := Option.some.inj hfound
      exact hopened
    · exact hagrees.keep rfl rfl fun _ h => by cases h
  · exact hagrees

/-- Every move of the reader and of the caller keeps the client and its registry in agreement. -/
theorem Agrees.next (hagrees : Agrees asked state) (step : FileTree × Move) :
    Agrees asked (state.next step) := by
  obtain ⟨files, move⟩ := step
  cases move with
  | receive message => exact hagrees.receive message
  | work => exact hagrees.work
  | terminate => exact hagrees.keep rfl rfl fun _ h => h
  | resume => exact hagrees.resume
  | expire => exact hagrees.expire
  | grant => exact hagrees.grant
  | finish => exact hagrees.finish

theorem agrees_begin (home : String) (client : Client) (root : String) :
    Agrees client.encoding (State.begin home client root) := by
  obtain ⟨folders, nextId, outstanding, outbox, hbegun⟩ := exists_beginHandshake home client root
  unfold State.begin
  split
  · rename_i id after hbegin
    rw [hbegin] at hbegun
    obtain rfl : after = _ := hbegun
    exact ⟨rfl, fun _ h => by cases h⟩
  · rename_i error after hbegin
    rw [hbegin] at hbegun
    obtain rfl : after = _ := hbegun
    exact ⟨rfl, fun _ h => by cases h⟩

/-- For every interleaving of the reader and the caller, at every moment after the handshake has
succeeded: the client counts positions in the unit that the server has named, and if it has named
none, in the one that the client has asked for. That is the unit in which the server counts exactly
if the server has named one or the client has asked for UTF-16. -/
theorem positionEncoding_of_returned (home : String) (client : Client) (root : String)
    (steps : List (FileTree × Move)) {result : HandshakeResult}
    (hreturned : ((State.begin home client root).run steps).stage = .returned result) :
    ((State.begin home client root).run steps).client.positionEncoding =
        result.capabilities.positionEncoding.getD client.encoding ∧
      (((State.begin home client root).run steps).client.positionEncoding = result.encoding ↔
        result.capabilities.positionEncoding.isSome = true ∨ client.encoding = .utf16) := by
  have hagrees : Agrees client.encoding ((State.begin home client root).run steps) :=
    Run.final_induction State.next _ (agrees_begin home client root)
      (fun _ step h => h.next step) steps
  have hknows := hagrees.knows result (by rw [hreturned]; rfl)
  have hcounts : ((State.begin home client root).run steps).client.positionEncoding =
      result.capabilities.positionEncoding.getD client.encoding := by
    rw [Client.positionEncoding, hknows, Option.bind_some, hagrees.asks]
  refine ⟨hcounts, ?_⟩
  rw [hcounts, HandshakeResult.encoding]
  cases result.capabilities.positionEncoding with
  | none => simp
  | some named => simp

/-- The server answers the handshake, and the caller goes on. -/
def answers (capabilities : List (String × Json)) : List (FileTree × Move) := [
  .receive (.response (.success (.number 1) (.obj [("capabilities", .obj capabilities)]))),
  .resume, .grant, .finish].map (Sample.files, ·)

/-- A server names the unit, which is not the one that it was asked for. -/
theorem positionEncoding_of_named :
    ∃ result, ((State.begin "/home" (.connect "server" .utf8 .standard 0 none) "/w").run
        (answers [("positionEncoding", .str "utf-32")])).stage = .returned result ∧
      ((State.begin "/home" (.connect "server" .utf8 .standard 0 none) "/w").run
        (answers [("positionEncoding", .str "utf-32")])).client.positionEncoding = .utf32 ∧
      result.encoding = .utf32 := by
  obtain ⟨hcounts, hagrees⟩ := positionEncoding_of_returned "/home"
    (.connect "server" .utf8 .standard 0 none) "/w"
    (answers [("positionEncoding", .str "utf-32")]) rfl
  exact ⟨_, rfl, hcounts, (hagrees.mpr (.inl rfl)).symm.trans hcounts⟩

/-- A server that names no unit counts in UTF-16, but a client that has asked for UTF-8 goes on as
if it counted in UTF-8. -/
theorem positionEncoding_ne_of_silent :
    ∃ result, ((State.begin "/home" (.connect "server" .utf8 .standard 0 none) "/w").run
        (answers [])).stage = .returned result ∧ result.encoding = .utf16 ∧
      ((State.begin "/home" (.connect "server" .utf8 .standard 0 none) "/w").run
        (answers [])).client.positionEncoding = .utf8 :=
  ⟨_, rfl, rfl, rfl⟩

end Steps

end LanguageClient.Handshake
