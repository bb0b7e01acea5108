import HeatPlacement.Api.Answer
import HeatPlacement.Main
import HeatPlacement.Store.Local
import HeatPlacement.Toml.Quoted.Lemmas
import HeatPlacement.Proofs.Fields
import HeatPlacement.Proofs.Walk.Likeness
import HeatPlacement.Proofs.Walk.Congruence
import HeatPlacement.Proofs.Walk.Ensures
import HeatPlacement.Proofs.Walk.Restoration
import HeatPlacement.Proofs.Walk.Recursion
import HeatPlacement.Proofs.Walk.Outcome
import HeatPlacement.Proofs.Walk.Members
import HeatPlacement.Proofs.Groups.Names
import HeatPlacement.Proofs.Groups.Expandable
import HeatPlacement.Proofs.Groups.Expansion
import HeatPlacement.Proofs.Groups.Servers
import HeatPlacement.Proofs.Groups.Collisions
import HeatPlacement.Proofs.Walk.Cycles
import HeatPlacement.Proofs.Parameters.Scopes
import HeatPlacement.Proofs.Walk.Properties
import HeatPlacement.Proofs.Parameters.Siblings
import HeatPlacement.Proofs.Walk.Shape
import HeatPlacement.Proofs.Walk.Documents
import HeatPlacement.Proofs.Walk.Order
import HeatPlacement.Proofs.Walk.Retention
import HeatPlacement.Proofs.Walk.Guard
import HeatPlacement.Proofs.Polling.Course
import HeatPlacement.Proofs.Polling.Protocol
import HeatPlacement.Proofs.Polling.Limits
import HeatPlacement.Proofs.Placement.Ending
import HeatPlacement.Proofs.Polling.Clients
import HeatPlacement.Proofs.Polling.Isolation
import HeatPlacement.Proofs.Polling.Sharing
import HeatPlacement.Proofs.Placement.Keys
import HeatPlacement.Proofs.Json.ReadBack
import HeatPlacement.Proofs.Store.Maps
import HeatPlacement.Proofs.Json.Parts
import HeatPlacement.Proofs.Parameters.Merging
import HeatPlacement.Proofs.Parameters.Parts
import HeatPlacement.Proofs.Walk.Lockstep
import HeatPlacement.Proofs.Walk.Failures
import HeatPlacement.Proofs.Walk.Frames
import HeatPlacement.Proofs.Walk.Lookups
import HeatPlacement.Proofs.Walk.Unreferenced
import HeatPlacement.Proofs.Parameters.Precedence
import HeatPlacement.Proofs.Parameters.References
import HeatPlacement.Proofs.Parameters.SelfNamed
import HeatPlacement.Proofs.Parameters.GroupNames
import HeatPlacement.Proofs.Parameters.CleanNames
import HeatPlacement.Proofs.Parameters.Indices
import HeatPlacement.Proofs.Groups.Zones
import HeatPlacement.Proofs.Walk.Innermost
import HeatPlacement.Proofs.Groups.Hosts
import HeatPlacement.Proofs.Parameters.GroupLists
import HeatPlacement.Proofs.Store.Failover
import HeatPlacement.Proofs.Json.Distinct
import HeatPlacement.Proofs.Placement.Responses
import HeatPlacement.Proofs.Duration
import HeatPlacement.Proofs.Placement.Forwarding
import HeatPlacement.Proofs.Placement.Reencoding
import HeatPlacement.Proofs.Config
