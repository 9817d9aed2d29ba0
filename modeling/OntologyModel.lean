import OntologyModel.Main
import OntologyModel.Proofs.Answers
import OntologyModel.Proofs.Contexts
import OntologyModel.Proofs.Counts
import OntologyModel.Proofs.Fallbacks
import OntologyModel.Proofs.Footprint
import OntologyModel.Proofs.Idempotence
import OntologyModel.Proofs.Layers
import OntologyModel.Proofs.Lookups
import OntologyModel.Proofs.Metadata
import OntologyModel.Proofs.Precedence.Linking
import OntologyModel.Proofs.Precedence.Passes
import OntologyModel.Proofs.Precedence.Termination
import OntologyModel.Proofs.Refusal
import OntologyModel.Proofs.Registration
import OntologyModel.Proofs.Rendering
import OntologyModel.Proofs.Shadowing
import OntologyModel.Proofs.Ties
import OntologyModel.Proofs.ValueTypes
