import NebulaIM.Services.Conversations

/-!
# The contract of the services

Every thread changes the database by units of work only; what the others may
rely on, and the invariant of the world, follow from that.
-/

namespace NebulaIM.Services

open Foundation Foundation.Store
open Backend Protocol

variable {config : Config} {w w' : World} {client : Nat}

structure Inv (config : Config) (w : World) : Prop where
  engine : w.sql.WellFormed
  keyed : w.db.Keyed
  messages : Messages config w
  outbox : Outbox config w
  conversations : Conversations w

/-- What one call of a thread does to the world. -/
structure Step (config : Config) (client : Nat) (w w' : World) : Prop where
  moves : Engine.Moves client w.sql w'.sql
  effect : (w'.db = w.db ∧ w'.log = w.log) ∨ ∃ writes, Work config w client writes ∧
      w'.db = applyAll (D := dialect) w.db writes ∧
      w'.log = (client, writes) :: w.log ∧
      w'.produced = w.produced ∧ w'.tokens = w.tokens
  produced : w.produced <:+ w'.produced
  tokens : w.tokens <:+ w'.tokens

structure Rely (client : Nat) (w w' : World) : Prop where
  engine : Engine.Rely client w.sql w'.sql
  grows : Grows w w'
  own : ∀ {writes}, (client, writes) ∈ w'.log → (client, writes) ∈ w.log

/-! ## The invariant holds on -/

theorem Inv.of_same_rows (h : Inv config w) (hengine : w'.sql.WellFormed)
    (hmessages : w'.db.messages = w.db.messages) (houtbox : w'.db.outbox = w.db.outbox)
    (hconversations : w'.db.conversations = w.db.conversations)
    (hoffline : w'.db.offline = w.db.offline) (hmembers : w'.db.members = w.db.members)
    (hreceipts : w'.db.receipts = w.db.receipts) (hlog : w'.log = w.log)
    (hproduced : w.produced <:+ w'.produced) (htokens : w.tokens <:+ w'.tokens) :
    Inv config w' where
  engine := hengine
  keyed := ⟨hmessages ▸ h.keyed.messages, houtbox ▸ h.keyed.outbox,
    hconversations ▸ h.keyed.conversations, hoffline ▸ h.keyed.offline,
    hmembers ▸ h.keyed.members, hreceipts ▸ h.keyed.receipts⟩
  messages := by
    refine h.messages.of_same ⟨fun id => by rw [hmessages], fun id => ?_, .inl hlog⟩
    rw [Db.eventOrigin, Db.eventOrigin, houtbox]
  outbox := h.outbox.mono houtbox hlog hproduced htokens
  conversations :=
    ⟨fun hrow hdeleted => hlog ▸ h.conversations.shown (hconversations ▸ hrow) hdeleted,
      fun hrow => hlog ▸ h.conversations.members (hmembers ▸ hrow)⟩

theorem Inv.step (h : Inv config w) (hstep : Step config client w w') : Inv config w' := by
  have hengine := hstep.moves.wellFormed h.engine
  rcases hstep.effect with ⟨hdb, hlog⟩ |
    ⟨writes, hwork, hdb, hlog, hproduced, htokens⟩
  · exact h.of_same_rows hengine (by rw [hdb]) (by rw [hdb]) (by rw [hdb])
      (by rw [hdb]) (by rw [hdb]) (by rw [hdb]) hlog hstep.produced hstep.tokens
  · exact
      { engine := hengine
        keyed := hdb ▸ h.keyed.applyAll writes
        messages := h.messages.work hwork hdb hlog
        outbox := h.outbox.work hwork hdb hlog hproduced htokens
        conversations := h.conversations.work hwork hdb hlog }

theorem Step.refl (config : Config) (client : Nat) (w : World) :
    Step config client w w :=
  ⟨.stay w.sql, .inl ⟨rfl, rfl⟩, List.suffix_refl _, List.suffix_refl _⟩

theorem Step.grows (hstep : Step config client w w') : Grows w w' := by
  rcases hstep.effect with ⟨hdb, hlog⟩ | ⟨writes, hwork, hdb, hlog, _, _⟩
  · exact .of_eq (by rw [hdb]) (by rw [hdb]) (hlog ▸ List.suffix_refl _)
      hstep.produced hstep.tokens
  · exact
      { messages := hdb ▸ Db.Grown.applyAll w.db writes _ _
        events := fun hevent => hdb ▸ hwork.event_kept hevent
        log := hlog ▸ List.suffix_cons _ _
        produced := hstep.produced
        tokens := hstep.tokens }

theorem Step.rely {other : Nat} (hstep : Step config client w w')
    (hengine : w.sql.WellFormed) (hne : client ≠ other) : Rely other w w' where
  engine := hstep.moves.rely hengine hne
  grows := hstep.grows
  own {writes} hmem := by
    rcases hstep.effect with ⟨_, hlog⟩ | ⟨work, _, _, hlog, _, _⟩
    · exact hlog ▸ hmem
    · rw [hlog] at hmem
      rcases List.mem_cons.mp hmem with heq | hold
      · cases heq
        exact absurd rfl hne
      · exact hold

theorem Rely.refl (client : Nat) (w : World) : Rely client w w :=
  ⟨.refl client w.sql, .refl w, fun h => h⟩

theorem Rely.trans {first second third : World} (h₁ : Rely client first second)
    (h₂ : Rely client second third) : Rely client first third :=
  ⟨h₁.engine.trans h₂.engine, h₁.grows.trans h₂.grows, fun hmem => h₁.own (h₂.own hmem)⟩

/-! ## The environment -/

theorem env_inv (h : Inv config w) (event : Env) : Inv config (w.env event) := by
  have hsuffix {α : Type} (l : List α) : l <:+ l := List.suffix_refl l
  cases event with
  | disconnect client =>
    exact h.of_same_rows ((Engine.Moves.closed w.sql).wellFormed h.engine)
      rfl rfl rfl rfl rfl rfl rfl (hsuffix _) (hsuffix _)
  | redis key value =>
    cases value <;>
      exact h.of_same_rows h.engine rfl rfl rfl rfl rfl rfl rfl (hsuffix _) (hsuffix _)
  | accounts users friendships =>
    exact h.of_same_rows ⟨h.engine.exclusive, h.engine.covered⟩
      rfl rfl rfl rfl rfl rfl rfl (hsuffix _) (hsuffix _)

theorem env_rely (client : Nat) (w : World) (event : Env) : Rely client w (w.env event) := by
  have hgrows {w' : World} (hmessages : w'.db.messages = w.db.messages)
      (houtbox : w'.db.outbox = w.db.outbox) (hlog : w'.log = w.log)
      (hproduced : w'.produced = w.produced) (htokens : w'.tokens = w.tokens) :
      Grows w w' :=
    .of_eq hmessages houtbox (hlog ▸ List.suffix_refl _)
      (hproduced ▸ List.suffix_refl _) (htokens ▸ List.suffix_refl _)
  cases event with
  | disconnect other =>
    exact ⟨Engine.close_rely other client w.sql, hgrows rfl rfl rfl rfl rfl, fun h => h⟩
  | redis key value =>
    cases value <;>
      exact ⟨.refl client w.sql, hgrows rfl rfl rfl rfl rfl, fun h => h⟩
  | accounts users friendships =>
    refine ⟨⟨fun htx => ⟨htx, fun key _ => ?_⟩, List.suffix_refl _⟩,
      hgrows rfl rfl rfl rfl rfl, fun h => h⟩
    exact Key.Agree.accounts key w.db users friendships

def contract (config : Config) : Contract (services config) {} where
  inv := Inv config
  rely := Rely
  guar := Step config
  rely_refl := Rely.refl
  rely_trans := Rely.trans
  guar_rely hne hinv hstep := hstep.rely hinv.engine hne
  env_inv hinv _ := env_inv hinv _
  env_rely _ _ := env_rely _ _ _

end NebulaIM.Services
