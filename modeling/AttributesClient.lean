import AttributesClient.Basic
import AttributesClient.Prog
import AttributesClient.Artifact
import AttributesClient.Store
import AttributesClient.Termination
import AttributesClient.Build
import AttributesClient.Success
import AttributesClient.Applier
import AttributesClient.Options
import AttributesClient.Command
import AttributesClient.Image
import AttributesClient.Concurrent
import AttributesClient.Views
import AttributesClient.Integrity
import AttributesClient.Container
import AttributesClient.Liveness
import AttributesClient.Chains
import AttributesClient.MountOptions
import AttributesClient.UnpackEffect
import AttributesClient.Snapshotters
