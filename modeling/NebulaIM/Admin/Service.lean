import NebulaIM.Backend.World

/-!
# Cleanup of old rows

`AdminServiceImpl::RunCleanup`.  All its statements run on one connection without
a transaction, so each commits by itself.
-/

namespace NebulaIM.Admin

open Backend Protocol

structure AdminCleanupOptions where
  outboxPublishedRetentionMs : Int64 := 7 * 24 * 3600 * 1000
  offlineAckedRetentionMs : Int64 := 7 * 24 * 3600 * 1000
  friendRequestRetentionMs : Int64 := 30 * 24 * 3600 * 1000
  messageReceiptRetentionMs : Int64 := 90 * 24 * 3600 * 1000
  cleanupBatchSize : Int32 := 1000

inductive AdminAuthDecision where
  | allow
  | permissionDenied
  | unauthenticated
  deriving DecidableEq, Repr

/-- The verdict of `AdminAuth`, whether the pool gave a connection, and how many
members `cleanupStaleOnlineDevices` counted in Redis. -/
structure AdminContext where
  decision : AdminAuthDecision := .allow
  connected : Bool := true
  staleDevices : Nat := 0

def cleanupRows (table : CleanupTable) (before : Int64) (limit : Nat)
    (dryRun : Bool) : Service Nat :=
  if dryRun then query (.countExpired table before)
  else query (.deleteExpired table before limit)

def runCleanup (options : AdminCleanupOptions) (ctx : AdminContext)
    (request : RunCleanupRequest) : Service RunCleanupResponse := do
  let fail (code : ErrorCode) (message : String) : RunCleanupResponse :=
    { response := fillResponse request.requestId code message }
  match ctx.decision with
  | .permissionDenied => return fail .authFailed "admin permission denied"
  | .unauthenticated => return fail .authFailed "admin unauthenticated"
  | .allow =>
    if !ctx.connected then
      return fail .serviceUnavailable "failed to acquire admin mysql connection"
    let now ← nowMs
    let batchSize :=
      if 0 < options.cleanupBatchSize then int32Value options.cleanupBatchSize
      else 1000
    let events ← cleanupRows .outboxEvents
      (now - options.outboxPublishedRetentionMs) batchSize request.dryRun
    let offline ← cleanupRows .offlineMessages
      (now - options.offlineAckedRetentionMs) batchSize request.dryRun
    let requests ← cleanupRows .friendRequests
      (now - options.friendRequestRetentionMs) batchSize request.dryRun
    let receipts ← cleanupRows .messageReceipts
      (now - options.messageReceiptRetentionMs) batchSize request.dryRun
    return {
      response := fillResponse request.requestId .ok (if request.dryRun then "DRY_RUN" else "OK")
      cleanedRows := events + offline + requests + receipts + ctx.staleDevices }

end NebulaIM.Admin
