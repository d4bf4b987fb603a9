import XdsRelay.Lru
import XdsRelay.Cache.Model
import XdsRelay.Cache.Typed
import XdsRelay.Cache.TypeSafety
import XdsRelay.Cache.Steps
import XdsRelay.Cache.EntryLaw
import XdsRelay.Cache.Eviction
import XdsRelay.Cache.Fetch
import XdsRelay.Cache.Agreement
import XdsRelay.Concurrency.World
import XdsRelay.Concurrency.Linearizability
import XdsRelay.Concurrency.Invariants
import XdsRelay.Concurrency.Linearization
import XdsRelay.Concurrency.Regularity
import XdsRelay.Concurrency.Recency
import XdsRelay.Concurrency.Progress
import XdsRelay.Concurrency.Mutex
import XdsRelay.Concurrency.RaceFree
