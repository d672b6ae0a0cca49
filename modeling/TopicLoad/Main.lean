import TopicLoad.Command.Campaign
import TopicLoad.Command.Dotenv
import TopicLoad.Log.Filter
import TopicLoad.Publish.Client
import TopicLoad.Publish.Wire
import TopicLoad.Template.Rendering
import Std.Async.DNS
import Std.Async.TCP
import Std.Time

/-! The command line program: files, clocks, random bits and connections for what the library
decides. -/
namespace TopicLoad
namespace Program

open Engine

/-! ## Errors -/

def worded (code : UInt32) (details : String) : String :=
  let n := if code.toNat < Limits.bits31 then code.toNat else Limits.bits32 - code.toNat
  s!"{details.capitalize} (os error {n})"

def reason (e : IO.Error) : String :=
  match e with
  | .noFileOrDirectory _ _ _ => "No such file or directory (os error 2)"
  | .alreadyExists _ n d | .otherError n d | .resourceBusy n d | .resourceVanished n d
  | .unsupportedOperation n d | .hardwareFault n d | .unsatisfiedConstraints n d
  | .illegalOperation n d | .protocolError n d | .timeExpired n d | .interrupted _ n d
  | .invalidArgument _ n d | .permissionDenied _ n d | .resourceExhausted _ n d
  | .inappropriateType _ n d | .noSuchThing _ n d => worded n d
  | .unexpectedEof => "unexpected end of file"
  | .userError text => text

/-! ## Surroundings -/

def freshSeed : IO Seed := do
  let bytes ← IO.getRandomBytes 8
  return ⟨bytes.toUInt64LE!⟩

def timeOfDay : IO Nat := do
  let now ← Std.Time.Timestamp.now
  return now.toMillisecondsSinceUnixEpoch.val.toNat

def stamp : IO String := do
  let now ← Std.Time.Timestamp.now
  let date := Std.Time.DateTime.ofTimestamp now Std.Time.TimeZone.ZoneRules.UTC
  return date.format "uuuu-MM-dd'T'HH:mm:ss.SSSSSS'Z'"

def column (level : Log.Level) : String :=
  String.ofList (List.replicate (5 - level.text.length) ' ') ++ level.text

def note (filter : Log.Filter) (l : Log.Line) : IO Unit := do
  if filter.admits l then
    let time ← stamp
    IO.println s!"{time} {column l.level} {l.message}"

def sleepMilliseconds (n : Nat) : IO Unit := do
  let most := 1000000000
  (n / most).forM fun _ _ => IO.sleep most.toUInt32
  IO.sleep (n % most).toUInt32

/-! ## Connections -/

/-- All bytes up to the end of a connection. -/
partial def receive (socket : Std.Async.TCP.Socket.Client) (got : ByteArray) : IO ByteArray := do
  match ← (socket.recv? 65536).block with
  | some more => receive socket (got ++ more)
  | none => return got

def socketAddress (port : UInt16) : Std.Net.IPAddr → Std.Net.SocketAddress
  | .v4 a => .v4 ⟨a, port⟩
  | .v6 a => .v6 ⟨a, port⟩

/-- The first connection that can be made, or why the last one could not. -/
def connect (failed : String) :
    List Std.Net.SocketAddress → IO (Except String Std.Async.TCP.Socket.Client)
  | [] => return .error failed
  | a :: as => do
    let socket ← Std.Async.TCP.Socket.Client.mk
    match ← (socket.connect a).block.toBaseIO with
    | .ok () => return .ok socket
    | .error e => connect (Publish.connectFailed (reason e)) as

def hostName (u : Url) : String :=
  String.ofList (((u.host.map Url.Host.text).getD "").toList.filter fun c => c ≠ '[' ∧ c ≠ ']')

/-- Sends a request over a connection of its own and reads the reply. -/
def exchange (r : Publish.Request) : IO (Except String Publish.Reply) := do
  let port := (r.url.port.getD 80).toUInt16
  match ← (Std.Async.DNS.getAddrInfo (hostName r.url) (toString port)).block.toBaseIO with
  | .error e => return .error s!"error trying to connect: dns error: {reason e}"
  | .ok places =>
    let addresses := places.toList.map (socketAddress port)
    match ← connect (Publish.connectFailed "no address") addresses with
    | .error f => return .error f
    | .ok socket =>
      (socket.send r.bytes).block
      let bytes ← receive socket ByteArray.empty
      return (Publish.Reply.ofBytes? (bytes.size + 1) bytes.toList).elim
        (.error "connection closed before message completed") .ok

/-- A connection that breaks off leaves no reply. -/
def send (r : Publish.Request) : IO (Except String Publish.Reply) := do
  match ← (exchange r).toBaseIO with
  | .ok reply => return reply
  | .error e => return .error s!"connection error: {reason e}"

/-! ## Runs -/

/-- What all runs share. -/
structure World where
  filter : Log.Filter
  endpoint : Publish.Endpoint
  metrics : IO.Ref Metrics

abbrev Flight := Task (Nat × Settlement)

def depart (w : World) (topic : Handle) (number : Nat) (message : Outgoing) : IO Flight :=
  BaseIO.asTask
    (do
      let told ← (Publish.publish send (note w.filter) w.endpoint.token topic message).toBaseIO
      let time ← IO.monoNanosNow
      match told with
      | .ok reply => return (number, ⟨reply, time⟩)
      | .error e => return (number, ⟨.error (.publish (reason e)), time⟩))
    Task.Priority.dedicated

/-- Serves a run to its end; nothing if a pause could not be measured. The calls that are in flight go
on meanwhile. -/
partial def follow (w : World) (settings : Settings) (flights : List (Nat × Flight)) (r : Run) :
    IO (Option Run) := do
  match r.act settings with
  | .finish => return some r
  | .silent r | .surrender r | .inspect _ r => follow w settings flights r
  | .emit e r =>
    w.metrics.modify (·.record e)
    follow w settings flights r
  | .note line r =>
    note w.filter line
    follow w settings flights r
  | .pause p r =>
    match p.effective? (← freshSeed) with
    | none => return none
    | some d =>
      sleepMilliseconds d.ceilMilliseconds
      follow w settings flights r
  | .acquire place batching next =>
    follow w settings flights (next (.ok (w.endpoint.handle place batching)))
  | .render template vars next =>
    let rendered := Template.render vars ⟨← freshSeed, ← timeOfDay⟩ template
    follow w settings flights (next (rendered.mapError fun f => .template f.message))
  | .publish topic number message next =>
    let flight ← depart w topic number message
    follow w settings (flights ++ [(number, flight)]) (next none)
  | .await _ next =>
    match flights.map Prod.snd with
    | [] => return none
    | t :: ts =>
      let (number, settlement) ← IO.waitAny (t :: ts) (by simp)
      follow w settings (flights.filter fun f => f.1 ≠ number) (next number settlement)
  | .call _ _ next => follow w settings flights (next none)

def host (w : World) : Command.Host IO where
  note := note w.filter
  context vars := do
    let seed ← freshSeed
    return { user := .ofRandom seed.wide, vars := vars, start := ← IO.monoNanosNow }
  join settings runs := do
    let tasks ← runs.mapM fun r => IO.asTask (follow w settings [] r) Task.Priority.dedicated
    let ended ← tasks.mapM fun t => IO.ofExcept t.get
    return ended.mapM id
  metrics := w.metrics.get

/-! ## Beginning and end -/

/-- What the variables of the environment are, those of a file included. -/
def environment : IO (String → Option String) := do
  let names := [Publish.emulatorVariable, Publish.tokenVariable]
  let set ← names.filterMapM fun name => do return (← IO.getEnv name).map ((name, ·))
  let found ← (Command.Dotenv.places (← IO.currentDir).toString).findSomeM?
    fun (place : String) => do return (← (IO.FS.readFile place).toBaseIO).toOption
  return Command.Dotenv.resolve (fun name => set.lookup name) (found.getD "")

def run (a : Command.Arguments) : IO Command.Verdict := do
  let env ← environment
  let filter := Log.Filter.ofText (Log.filterDirective (some a.logLevel))
  filter.remarks.forM IO.eprintln
  let endpoint := Publish.Endpoint.ofEnvironment (env Publish.emulatorVariable)
    (env Publish.tokenVariable)
  let contents ← (IO.FS.readBinFile a.script).toBaseIO
  Command.Campaign.perform (host ⟨filter, endpoint, ← IO.mkRef {}⟩) a (contents.mapError reason)

end Program
end TopicLoad

open TopicLoad in
def main (arguments : List String) : IO UInt32 := do
  match Command.Arguments.read arguments with
  | .error f =>
    IO.eprintln s!"error: {f.message}\n\nFor more information, try '--help'."
    return Command.Verdict.usageCode.toUInt32
  | .ok .help =>
    IO.print Command.Arguments.usage
    return 0
  | .ok (.run a) =>
    let verdict ← Program.run a
    verdict.message?.forM fun text => IO.eprintln s!"Error: {text}"
    return verdict.exitCode.toUInt32
