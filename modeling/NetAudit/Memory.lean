import NetAudit.Request
import NetAudit.Store.Archive

/-!
# Services in memory

A `Memory` holds an archive, the jobs of a queue that takes everything, and the messages of a
notifier that delivers everything.
-/

namespace NetAudit

/-- An archive, the jobs that wait, and the messages that were sent. -/
structure Memory where
  archive : Archive
  /-- The jobs, the newest first: a job is put in front, however many wait. -/
  waiting : List Job
  /-- The messages, the oldest first. -/
  sent : List Notification
deriving DecidableEq

namespace Memory

/-- The memory with the contents of an archive, without jobs and messages. -/
def ofArchive (a : Archive) : Memory := ⟨a, [], []⟩

instance : Inhabited Memory := ⟨ofArchive default⟩

/-- The jobs that wait, the oldest first. -/
def jobs (m : Memory) : List Job := m.waiting.reverse

/-- The store of a memory. -/
def store : Store Memory := Archive.store.zoom archive fun a m => { m with archive := a }

/-- Take a job. -/
def enqueue (job : Job) : Action Memory (Except QueueError Unit) := fun m =>
  ⟨.ok (), { m with waiting := job :: m.waiting }, [⟨none, .jobTaken job⟩]⟩

/-- Deliver a message. -/
def send (message : Notification) : Action Memory (Except NotifyError Unit) := fun m =>
  ⟨.ok (), { m with sent := m.sent ++ [message] }, []⟩

/-- The services of a memory. -/
def services : Services Memory := ⟨store, ⟨enqueue⟩, ⟨send⟩⟩

end Memory

end NetAudit
